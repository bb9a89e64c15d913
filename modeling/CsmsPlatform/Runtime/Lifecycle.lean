import CsmsPlatform.Runtime.Server

/-!
# The life of the server process

`main`, `New`, `Run`, `serve` and `Migrate` as one program of calls to the host, that of the main
goroutine. It opens a database handle and a Redis client, starts the goroutines that use them, and closes
them; every way out of it is to be followed to what becomes of the two. The other goroutines may use them
at any moment from their start on.
-/

namespace CsmsPlatform.Runtime

open Program Text

/-! ## Calls to the host -/

/-- The calls that the main goroutine makes. `goServe` and `goConsumer` start the goroutines of `serve`,
`select` is its wait for the listener or the context, and `cancelRun` cancels the context of the consumer. -/
inductive HostCall where
  | openMySQL (dsn : String)
  | pingMySQL
  | execMySQL (statement : String)
  | closeMySQL
  | register (interval : Int)
  | parseRedisURL (url : String)
  | newRedisClient
  | pingRedis
  | closeRedis
  | hostname
  | newIPRateLimiter (limit : Int)
  | newOcppServer (config : OcppConfig)
  | listen (addr : String)
  | setReady (ready : Bool)
  | goServe (tls : Bool)
  | goConsumer
  | select
  | cancelRun
  | shutdownOCPP
  | shutdownHTTP

inductive ProcessError where
  | canceled
  | serverClosed
  | other (text : String)
deriving DecidableEq, Repr

inductive Selected where
  | served (err : ProcessError)
  | cancelled
deriving DecidableEq, Repr

def HostReply : HostCall → Type
  | .openMySQL _ | .pingMySQL | .execMySQL _ | .register _ | .parseRedisURL _ | .pingRedis
  | .newIPRateLimiter _ | .newOcppServer _ | .listen _ => Except String Unit
  | .hostname => Except String String
  | .newRedisClient | .setReady _ | .goServe _ | .goConsumer | .cancelRun => Unit
  | .closeMySQL | .closeRedis | .shutdownOCPP | .shutdownHTTP => Except ProcessError Unit
  | .select => Selected

abbrev Process := Program HostCall HostReply

/-! Each call with its own type of reply. -/

def openMySQL (dsn : String) : Process (Except String Unit) := ask (HostCall.openMySQL dsn)
def pingMySQL : Process (Except String Unit) := ask HostCall.pingMySQL
def execMySQL (statement : String) : Process (Except String Unit) := ask (HostCall.execMySQL statement)
def registerHandlers (interval : Int) : Process (Except String Unit) := ask (HostCall.register interval)
def parseRedisURL (url : String) : Process (Except String Unit) := ask (HostCall.parseRedisURL url)
def newRedisClient : Process Unit := ask HostCall.newRedisClient
def pingRedis : Process (Except String Unit) := ask HostCall.pingRedis
def hostname : Process (Except String String) := ask HostCall.hostname
def newIPRateLimiter (limit : Int) : Process (Except String Unit) := ask (HostCall.newIPRateLimiter limit)
def newOcppServer (config : OcppConfig) : Process (Except String Unit) := ask (HostCall.newOcppServer config)
def listen (addr : String) : Process (Except String Unit) := ask (HostCall.listen addr)
def setReady (ready : Bool) : Process Unit := ask (HostCall.setReady ready)
def goServe (tls : Bool) : Process Unit := ask (HostCall.goServe tls)
def select : Process Selected := ask HostCall.select
def cancelRun : Process Unit := ask HostCall.cancelRun
def shutdownOCPP : Process (Except ProcessError Unit) := ask HostCall.shutdownOCPP
def shutdownHTTP : Process (Except ProcessError Unit) := ask HostCall.shutdownHTTP

/-! ## Starting -/

def closeDatabase (hasDatabase : Bool) : Process (Except ProcessError Unit) :=
  if hasDatabase then ask HostCall.closeMySQL else return .ok ()

def closeRedis (hasRedis : Bool) : Process (Except ProcessError Unit) :=
  if hasRedis then ask HostCall.closeRedis else return .ok ()

/-- Go on with a result. For an error what is open is closed, Redis first. -/
def orRelease {α β : Type} (hasRedis hasDatabase : Bool) (outcome : Except String α)
    (next : α → Process (Except String β)) : Process (Except String β) :=
  match outcome with
  | .error err => do
    let _ ← closeRedis hasRedis
    let _ ← closeDatabase hasDatabase
    return .error err
  | .ok a => next a

def migrateStatements : List String → Process (Except String Unit)
  | [] => return .ok ()
  | statement::rest =>
    if trimSpace statement = "" then migrateStatements rest
    else do
      match ← execMySQL (trimSpace statement) with
      | .error err => return .error ("execute mysql migration: " ++ err)
      | .ok _ => migrateStatements rest

def migrate (content : String) : Process (Except String Unit) := migrateStatements (split content ';')

def connectMySQL (migration : String) (config : Config) : Process (Except String Bool) :=
  if config.mysqlDSN = "" then return .ok false
  else do
    match ← openMySQL config.mysqlDSN with
    | .error err => return .error ("open mysql: " ++ err)
    | .ok _ =>
      let pinged ← pingMySQL
      orRelease false true (during "ping mysql" pinged) fun _ => do
        let migrated ← migrate migration
        orRelease false true migrated fun _ => return .ok true

/-- What runs over the client, under the name of the instance. -/
def commandPathOf (config : Config) (instanceID : String) : CommandPath where
  ownership := ⟨instanceID,config.sessionLeaseTTL,config.sessionRenew⟩
  commandBus := .new "csms" 300000000000
  rateLimiter := ⟨"csms",.ofInt config.commandRateLimit,60000000000⟩

def connectRedisClient (config : Config) (hasDatabase : Bool) :
    Process (Except String (Option CommandPath)) :=
  if config.redisURL = "" then return .ok none
  else do
    let parsed ← parseRedisURL config.redisURL
    orRelease false hasDatabase (during "parse redis URL" parsed) fun _ => do
      let _ ← newRedisClient
      let pinged ← pingRedis
      orRelease true hasDatabase (during "ping redis" pinged) fun _ =>
        if config.instanceID = "" then do
          let named ← hostname
          orRelease true hasDatabase (during "resolve runtime instance ID" named) fun instanceID =>
            return .ok (some (commandPathOf config instanceID))
        else return .ok (some (commandPathOf config config.instanceID))

section New

variable {KeyPair CertPool : Type} (host : Host KeyPair CertPool) (migration : String) (config : Config)

/-- The rest of `New` once the stores are connected. -/
def buildServer (tlsConfig : Option (TLSConfig KeyPair CertPool)) (hasDatabase : Bool)
    (commandPath : Option CommandPath) : Process (Except String (Server KeyPair CertPool)) := do
  let handshakeRateLimit := if config.handshakeRateLimit ≤ 0 then 30 else config.handshakeRateLimit
  let limited ← newIPRateLimiter handshakeRateLimit
  orRelease commandPath.isSome hasDatabase (during "create handshake rate limiter" limited) fun _ =>
    orRelease commandPath.isSome hasDatabase (during "create trusted proxy resolver"
      ((newTrustedProxyResolver config.trustedProxyCIDRs).mapError ResolverError.message)) fun resolver => do
      let ocpp : OcppConfig := {
        versions := config.versions
        ownership := commandPath.map CommandPath.ownership
        security := ocppSecurity tlsConfig handshakeRateLimit resolver }
      let created ← newOcppServer ocpp
      orRelease commandPath.isSome hasDatabase created fun _ =>
        return .ok ⟨config,ocpp,hasDatabase,commandPath,tlsConfig⟩

def newServer : Process (Except String (Server KeyPair CertPool)) :=
  match buildTLSConfig host config with
  | .error err => return .error err
  | .ok tlsConfig => do
    match ← connectMySQL migration config with
    | .error err => return .error err
    | .ok hasDatabase =>
      let registered ← registerHandlers config.heartbeatInterval
      orRelease false hasDatabase registered fun _ => do
        match ← connectRedisClient config hasDatabase with
        | .error err => return .error err
        | .ok commandPath => buildServer config tlsConfig hasDatabase commandPath

end New

/-! ### The calls of `New` come to what it returns -/

section Result

variable {KeyPair CertPool : Type} (host : Host KeyPair CertPool) (exec : String → Except String Unit)

def Host.reply (call : HostCall) : HostReply call :=
  match call with
  | .openMySQL dsn => host.openMySQL dsn
  | .pingMySQL => host.pingMySQL
  | .execMySQL statement => exec statement
  | .register interval => host.register interval
  | .parseRedisURL url => host.parseRedisURL url
  | .newRedisClient | .setReady _ | .goServe _ | .goConsumer | .cancelRun => ()
  | .pingRedis => host.pingRedis
  | .hostname => host.hostname
  | .newIPRateLimiter limit => host.newIPRateLimiter limit
  | .newOcppServer config => host.newOcppServer config
  | .listen _ => (.ok () : Except String Unit)
  | .closeMySQL | .closeRedis | .shutdownOCPP | .shutdownHTTP => (.ok () : Except ProcessError Unit)
  | .select => Selected.cancelled

def migrateOutcome : List String → Except String Unit
  | [] => .ok ()
  | statement::rest =>
    if trimSpace statement = "" then migrateOutcome rest
    else
      match exec (trimSpace statement) with
      | .error err => .error ("execute mysql migration: " ++ err)
      | .ok _ => migrateOutcome rest

abbrev resultOn {α : Type} (p : Process α) : α := (run (fun call u => (host.reply exec call,u)) p ()).1

variable {host exec}

theorem resultOn_bind {α β : Type} (p : Process α) (f : α → Process β) :
    resultOn host exec (p >>= f) = resultOn host exec (f (resultOn host exec p)) := by
  rw [resultOn,run_bind]

theorem resultOn_orRelease {α β : Type} (hasRedis hasDatabase : Bool) (outcome : Except String α)
    (next : α → Process (Except String β)) :
    resultOn host exec (orRelease hasRedis hasDatabase outcome next) =
      outcome >>= fun a => resultOn host exec (next a) := by
  cases outcome with
  | error err => cases hasRedis <;> cases hasDatabase <;> rfl
  | ok a => rfl

section Replies

@[simp] theorem resultOn_openMySQL (dsn : String) : resultOn host exec (openMySQL dsn) = host.openMySQL dsn := rfl

@[simp] theorem resultOn_pingMySQL : resultOn host exec pingMySQL = host.pingMySQL := rfl

@[simp] theorem resultOn_execMySQL (statement : String) :
    resultOn host exec (execMySQL statement) = exec statement := rfl

@[simp] theorem resultOn_registerHandlers (interval : Int) :
    resultOn host exec (registerHandlers interval) = host.register interval := rfl

@[simp] theorem resultOn_parseRedisURL (url : String) :
    resultOn host exec (parseRedisURL url) = host.parseRedisURL url := rfl

@[simp] theorem resultOn_pingRedis : resultOn host exec pingRedis = host.pingRedis := rfl

@[simp] theorem resultOn_hostname : resultOn host exec hostname = host.hostname := rfl

@[simp] theorem resultOn_newIPRateLimiter (limit : Int) :
    resultOn host exec (newIPRateLimiter limit) = host.newIPRateLimiter limit := rfl

@[simp] theorem resultOn_newOcppServer (config : OcppConfig) :
    resultOn host exec (newOcppServer config) = host.newOcppServer config := rfl

end Replies

theorem resultOn_migrateStatements (statements : List String) :
    resultOn host exec (migrateStatements statements) = migrateOutcome exec statements := by
  induction statements with
  | nil => rfl
  | cons statement rest ih =>
    unfold migrateStatements migrateOutcome
    by_cases hempty : trimSpace statement = ""
    · rw [if_pos hempty,if_pos hempty]
      exact ih
    · rw [if_neg hempty,if_neg hempty,resultOn_bind,resultOn_execMySQL]
      cases exec (trimSpace statement) with
      | error err => rfl
      | ok u => exact ih

variable {migration : String} {config : Config}

theorem resultOn_connectMySQL (hmigrate : host.migrate = migrateOutcome exec (split migration ';')) :
    resultOn host exec (connectMySQL migration config) = openDatabase host config := by
  have hmigrated : resultOn host exec (migrate migration) = host.migrate := by
    rw [hmigrate]
    exact resultOn_migrateStatements _
  unfold connectMySQL openDatabase
  by_cases hdsn : config.mysqlDSN = ""
  · rw [if_pos hdsn,if_pos hdsn]
    rfl
  · rw [if_neg hdsn,if_neg hdsn,resultOn_bind,resultOn_openMySQL]
    cases host.openMySQL config.mysqlDSN with
    | error err => rfl
    | ok u =>
      simp only [resultOn_bind,resultOn_pingMySQL,resultOn_orRelease,hmigrated]
      rfl

theorem resultOn_connectRedisClient (hasDatabase : Bool) :
    resultOn host exec (connectRedisClient config hasDatabase) = connectRedis host config := by
  unfold connectRedisClient connectRedis
  by_cases hurl : config.redisURL = ""
  · rw [if_pos hurl,if_pos hurl]
    rfl
  · rw [if_neg hurl,if_neg hurl]
    by_cases hid : config.instanceID = ""
    · simp only [resultOn_bind,resultOn_orRelease,resultOn_parseRedisURL,resultOn_pingRedis,
        resultOn_hostname,if_pos hid]
      rfl
    · simp only [resultOn_bind,resultOn_orRelease,resultOn_parseRedisURL,resultOn_pingRedis,if_neg hid]
      rfl

/-- On a host that replies in one way, the calls of `New` come to the server that was described as a
function of the host. -/
theorem resultOn_newServer (hmigrate : host.migrate = migrateOutcome exec (split migration ';')) :
    resultOn host exec (newServer host migration config) = Server.new host config := by
  unfold newServer Server.new
  cases buildTLSConfig host config with
  | error err => rfl
  | ok tlsConfig =>
    dsimp only
    rw [resultOn_bind,resultOn_connectMySQL hmigrate]
    cases openDatabase host config with
    | error err => rfl
    | ok hasDatabase =>
      dsimp only
      rw [resultOn_bind,resultOn_registerHandlers,resultOn_orRelease]
      cases host.register config.heartbeatInterval with
      | error err => rfl
      | ok u =>
        change resultOn host exec _ = _
        rw [resultOn_bind,resultOn_connectRedisClient]
        cases connectRedis host config with
        | error err => rfl
        | ok commandPath =>
          unfold buildServer
          simp only [resultOn_bind,resultOn_newIPRateLimiter,resultOn_orRelease,resultOn_newOcppServer]
          rfl

end Result

/-! ## Serving -/

def errorOf : Except ProcessError Unit → Option ProcessError
  | .error err => some err
  | .ok _ => none

/-- `errors.Join` leaves out what is no error. -/
def joinErrors (outcomes : List (Except ProcessError Unit)) : Except (List ProcessError) Unit :=
  if outcomes.filterMap errorOf = [] then .ok () else .error (outcomes.filterMap errorOf)

section Run

variable {KeyPair CertPool : Type}

def startConsumer (hasCommandBus : Bool) : Process Unit :=
  if hasCommandBus then ask HostCall.goConsumer else return ()

/-- What `serve` does once its context is done. The deferred `cancelRun` comes before every return. -/
def shutDown (server : Server KeyPair CertPool) : Process (Except (List ProcessError) Unit) := do
  setReady false
  cancelRun
  let ocppErr ← shutdownOCPP
  let httpErr ← shutdownHTTP
  let databaseErr ← closeDatabase server.hasDatabase
  let redisErr ← closeRedis server.commandPath.isSome
  cancelRun
  return joinErrors [ocppErr,httpErr,databaseErr,redisErr]

/-- A listener that fails by itself leaves the handles as they are. -/
def serve (server : Server KeyPair CertPool) : Process (Except (List ProcessError) Unit) := do
  setReady true
  goServe server.tlsConfig.isSome
  startConsumer server.commandPath.isSome
  match ← select with
  | .served err =>
    setReady false
    cancelRun
    return if err = .serverClosed then .ok () else .error [err]
  | .cancelled => shutDown server

def runServer (server : Server KeyPair CertPool) : Process (Except (List ProcessError) Unit) := do
  match ← listen server.config.httpAddr with
  | .error err =>
    let _ ← closeDatabase server.hasDatabase
    let _ ← closeRedis server.commandPath.isSome
    return .error [.other err]
  | .ok _ => serve server

/-- A cancelled context is no failure, whatever else went wrong with it. -/
def exitCode : Except (List ProcessError) Unit → Nat
  | .error errs => if .canceled ∈ errs then 0 else 1
  | .ok _ => 0

def main (host : Host KeyPair CertPool) (migration : String) (lookup : Environment) : Process Nat :=
  match loadConfig lookup with
  | .error _ => return 2
  | .ok config => do
    match ← newServer host migration config with
    | .error _ => return 1
    | .ok server =>
      let result ← runServer server
      return exitCode result

end Run

/-! ## What may be called when -/

/-- A closed handle keeps the reply to its closing. -/
inductive Handle where
  | unopened
  | opened
  | closed (reply : Except ProcessError Unit)
deriving DecidableEq

def Handle.reply : Handle → Option (Except ProcessError Unit)
  | .closed reply => some reply
  | _ => none

structure Needs where
  database : Bool
  redis : Bool
deriving DecidableEq, Repr

def Config.needs (config : Config) : Needs := ⟨config.mysqlDSN ≠ "",config.redisURL ≠ ""⟩

/-- The two handles, whether the other goroutines have been started, how the listener ended, whether the
context of the consumer is cancelled, and what the two shutdowns have replied. -/
structure Handles where
  database : Handle := .unopened
  redis : Handle := .unopened
  serving : Bool := false
  ended : Option ProcessError := none
  cancelled : Bool := false
  ocpp : Option (Except ProcessError Unit) := none
  http : Option (Except ProcessError Unit) := none
deriving DecidableEq

namespace Handles

/-- The consumer has been told to stop, and both shutdowns have returned, with or without an error. -/
def Drained (s : Handles) : Prop := s.cancelled = true ∧ s.ocpp.isSome = true ∧ s.http.isSome = true

def Closable (s : Handles) : Prop := s.serving = false ∨ s.Drained

def Held (needs : Needs) (s : Handles) : Prop :=
  s.database = (if needs.database then .opened else .unopened) ∧
    s.redis = if needs.redis then .opened else .unopened

instance (s : Handles) : Decidable s.Drained := inferInstanceAs (Decidable (_ ∧ _))

instance (s : Handles) : Decidable s.Closable := inferInstanceAs (Decidable (_ ∨ _))

instance (needs : Needs) (s : Handles) : Decidable (s.Held needs) := inferInstanceAs (Decidable (_ ∧ _))

/-- A call is refused when its handle is not open or is opened again, when the goroutines would be started
without their handles, and when these would be closed before the goroutines were told to end. -/
def advance (needs : Needs) (call : HostCall) (reply : HostReply call) (s : Handles) : Option Handles :=
  match call,reply with
  | .openMySQL _,.error _ => if s.database = .unopened ∧ s.serving = false then some s else none
  | .openMySQL _,.ok _ =>
    if s.database = .unopened ∧ s.serving = false then some { s with database := .opened } else none
  | .pingMySQL,_ => if s.database = .opened then some s else none
  | .execMySQL _,_ => if s.database = .opened then some s else none
  | .closeMySQL,reply =>
    if s.database = .opened ∧ s.Closable then some { s with database := .closed reply } else none
  | .newRedisClient,_ =>
    if s.redis = .unopened ∧ s.serving = false then some { s with redis := .opened } else none
  | .pingRedis,_ => if s.redis = .opened then some s else none
  | .closeRedis,reply =>
    if s.redis = .opened ∧ s.Closable then some { s with redis := .closed reply } else none
  | .goServe _,_ =>
    if s.serving = false ∧ s.Held needs then some { s with serving := true } else none
  | .goConsumer,_ => if s.redis = .opened then some s else none
  | .select,.served err => if s.serving = true then some { s with ended := some err } else none
  | .cancelRun,_ => some { s with cancelled := true }
  | .shutdownOCPP,reply => some { s with ocpp := some reply }
  | .shutdownHTTP,reply => some { s with http := some reply }
  | _,_ => some s

/-- Until they are told to end, the goroutines find their handles open. -/
def Serves (needs : Needs) (s : Handles) : Prop := s.serving = true → s.Drained ∨ s.Held needs

theorem Serves.advance {needs : Needs} {s s' : Handles} (hs : s.Serves needs) {call : HostCall}
    {reply : HostReply call} (h : advance needs call reply s = some s') : s'.Serves needs := by
  -- a call that is allowed leaves the handles, opens one before the goroutines, or closes one after them
  unfold Handles.advance at h
  split at h
  all_goals simp only [Option.ite_none_right_eq_some,Option.some.injEq] at h
  · exact h.2 ▸ hs
  · obtain ⟨⟨_,hserving⟩,rfl⟩ := h
    intro hserves
    simp [hserving] at hserves
  · exact h.2 ▸ hs
  · exact h.2 ▸ hs
  · obtain ⟨⟨_,hclosable⟩,rfl⟩ := h
    exact fun hserves => .inl (hclosable.resolve_left (by simp [show s.serving = true from hserves]))
  · obtain ⟨⟨_,hserving⟩,rfl⟩ := h
    intro hserves
    simp [hserving] at hserves
  · exact h.2 ▸ hs
  · obtain ⟨⟨_,hclosable⟩,rfl⟩ := h
    exact fun hserves => .inl (hclosable.resolve_left (by simp [show s.serving = true from hserves]))
  · obtain ⟨⟨_,hheld⟩,rfl⟩ := h
    exact fun _ => .inr hheld
  · exact h.2 ▸ hs
  · obtain ⟨_,rfl⟩ := h
    exact hs
  · subst h
    exact fun hserves => (hs hserves).imp_left fun hdrained => ⟨rfl,hdrained.2⟩
  · subst h
    exact fun hserves => (hs hserves).imp_left fun hdrained => ⟨hdrained.1,rfl,hdrained.2.2⟩
  · subst h
    exact fun hserves => (hs hserves).imp_left fun hdrained => ⟨hdrained.1,hdrained.2.1,rfl⟩
  · exact h ▸ hs

structure Released (s : Handles) : Prop where
  database : s.database ≠ .opened
  redis : s.redis ≠ .opened
  ended : s.ended = none
  ocpp : s.ocpp = none

def holding (hasDatabase hasRedis : Bool) : Handles where
  database := if hasDatabase then .opened else .unopened
  redis := if hasRedis then .opened else .unopened

def errors (s : Handles) : List ProcessError :=
  [s.ocpp,s.http,s.database.reply,s.redis.reply].filterMap fun reply => reply.bind errorOf

end Handles

/-! ## Every way to start -/

section Start

open Handles

variable {needs : Needs}

/-- What becomes of a handle by closing it, if there is one. -/
def closing (has : Bool) (reply : Except ProcessError Unit) : Handle :=
  if has then .closed reply else .unopened

theorem closing_ne_opened (has : Bool) (reply : Except ProcessError Unit) : closing has reply ≠ .opened := by
  unfold closing
  cases has <;> simp

theorem follows_closeDatabase {hasDatabase : Bool} {s : Handles} (hclosable : s.Closable)
    (hs : s.database = if hasDatabase then .opened else .unopened) :
    Follows (Handles.advance needs) (fun reply s' => s' = { s with database := closing hasDatabase reply } ∧
      (hasDatabase = false → reply = .ok ())) (closeDatabase hasDatabase) s := by
  cases hasDatabase with
  | false =>
    cases s
    cases hs
    exact ⟨rfl,fun _ => rfl⟩
  | true =>
    intro reply
    exact ⟨_,if_pos ⟨hs,hclosable⟩,rfl,fun hfalse => by cases hfalse⟩

theorem follows_closeRedis {hasRedis : Bool} {s : Handles} (hclosable : s.Closable)
    (hs : s.redis = if hasRedis then .opened else .unopened) :
    Follows (Handles.advance needs) (fun reply s' => s' = { s with redis := closing hasRedis reply } ∧
      (hasRedis = false → reply = .ok ())) (closeRedis hasRedis) s := by
  cases hasRedis with
  | false =>
    cases s
    cases hs
    exact ⟨rfl,fun _ => rfl⟩
  | true =>
    intro reply
    exact ⟨_,if_pos ⟨hs,hclosable⟩,rfl,fun hfalse => by cases hfalse⟩

/-- A start that fails releases everything. -/
def Started {α : Type} (P : α → Handles → Prop) : Except String α → Handles → Prop
  | .error _, s => s.Released
  | .ok a, s => P a s

variable {α β : Type} {hasDatabase hasRedis : Bool} {P : β → Handles → Prop}

theorem follows_orRelease {outcome : Except String α} {next : α → Process (Except String β)}
    (hnext : ∀ a, outcome = .ok a →
      Follows (Handles.advance needs) (Started P) (next a) (holding hasDatabase hasRedis)) :
    Follows (Handles.advance needs) (Started P) (orRelease hasRedis hasDatabase outcome next)
      (holding hasDatabase hasRedis) := by
  cases outcome with
  | ok a => exact hnext a rfl
  | error err =>
    apply (follows_closeRedis (.inl rfl) rfl).bind
    rintro redisErr s ⟨rfl,_⟩
    apply (follows_closeDatabase (.inl rfl) rfl).bind
    rintro databaseErr s ⟨rfl,_⟩
    exact ⟨closing_ne_opened _ _,closing_ne_opened _ _,rfl,rfl⟩

theorem follows_migrateStatements (statements : List String) {s : Handles} (hs : s.database = .opened) :
    Follows (Handles.advance needs) (fun _ s' => s' = s) (migrateStatements statements) s := by
  induction statements with
  | nil => rfl
  | cons statement rest ih =>
    unfold migrateStatements
    by_cases hempty : trimSpace statement = ""
    · rw [if_pos hempty]
      exact ih
    · rw [if_neg hempty]
      intro reply
      refine ⟨_,if_pos hs,?_⟩
      cases reply with
      | error err => rfl
      | ok u => exact ih

theorem follows_connectMySQL (migration : String) (config : Config) :
    Follows (Handles.advance needs) (Started fun hasDatabase s =>
        hasDatabase = config.needs.database ∧ s = holding hasDatabase false)
      (connectMySQL migration config) {} := by
  unfold connectMySQL
  by_cases hdsn : config.mysqlDSN = ""
  · rw [if_pos hdsn]
    exact ⟨by simp [Config.needs,hdsn],rfl⟩
  · rw [if_neg hdsn]
    intro opened
    cases (opened : Except String Unit) with
    | error err => exact ⟨_,rfl,by decide,by decide,rfl,rfl⟩
    | ok u =>
      refine ⟨holding true false,rfl,?_⟩
      intro pinged
      refine ⟨_,rfl,follows_orRelease ?_⟩
      intro _ _
      apply (follows_migrateStatements _ rfl).bind
      rintro migrated s rfl
      apply follows_orRelease
      intro _ _
      exact ⟨by simp [Config.needs,hdsn],rfl⟩

theorem follows_connectRedisClient (config : Config) (hasDatabase : Bool) :
    Follows (Handles.advance needs) (Started fun commandPath s =>
        commandPath.isSome = config.needs.redis ∧ s = holding hasDatabase commandPath.isSome)
      (connectRedisClient config hasDatabase) (holding hasDatabase false) := by
  unfold connectRedisClient
  by_cases hurl : config.redisURL = ""
  · rw [if_pos hurl]
    exact ⟨by simp [Config.needs,hurl],rfl⟩
  · rw [if_neg hurl]
    intro parsed
    refine ⟨_,rfl,follows_orRelease ?_⟩
    intro _ _ client
    refine ⟨holding hasDatabase true,rfl,?_⟩
    intro pinged
    refine ⟨_,rfl,follows_orRelease ?_⟩
    intro _ _
    by_cases hid : config.instanceID = ""
    · rw [if_pos hid]
      intro named
      refine ⟨_,rfl,follows_orRelease ?_⟩
      intro instanceID _
      exact ⟨by simp [Config.needs,hurl],rfl⟩
    · rw [if_neg hid]
      exact ⟨by simp [Config.needs,hurl],rfl⟩

variable {KeyPair CertPool : Type}

theorem follows_buildServer (config : Config) (tlsConfig : Option (TLSConfig KeyPair CertPool))
    (hasDatabase : Bool) (commandPath : Option CommandPath) :
    Follows (Handles.advance needs) (Started fun server s => server.hasDatabase = hasDatabase ∧
        server.commandPath = commandPath ∧ s = holding hasDatabase commandPath.isSome)
      (buildServer config tlsConfig hasDatabase commandPath) (holding hasDatabase commandPath.isSome) := by
  intro limited
  refine ⟨_,rfl,follows_orRelease ?_⟩
  intro _ _
  apply follows_orRelease
  intro resolver _ created
  refine ⟨_,rfl,follows_orRelease ?_⟩
  intro _ _
  exact ⟨rfl,rfl,rfl⟩

theorem follows_newServer (host : Host KeyPair CertPool) (migration : String) (config : Config) :
    Follows (Handles.advance needs) (Started fun server s => server.hasDatabase = config.needs.database ∧
        server.commandPath.isSome = config.needs.redis ∧
        s = holding server.hasDatabase server.commandPath.isSome)
      (newServer host migration config) {} := by
  unfold newServer
  cases buildTLSConfig host config with
  | error err => exact ⟨by decide,by decide,rfl,rfl⟩
  | ok tlsConfig =>
    apply (follows_connectMySQL migration config).bind
    intro connected s hconnected
    cases connected with
    | error err => exact hconnected
    | ok hasDatabase =>
      obtain ⟨hdatabase,rfl⟩ := hconnected
      intro registered
      refine ⟨_,rfl,follows_orRelease ?_⟩
      intro _ _
      apply (follows_connectRedisClient config hasDatabase).bind
      intro connected s hconnected
      cases connected with
      | error err => exact hconnected
      | ok commandPath =>
        obtain ⟨hredis,rfl⟩ := hconnected
        apply (follows_buildServer config tlsConfig hasDatabase commandPath).mono
        intro built s hbuilt
        cases built with
        | error err => exact hbuilt
        | ok server =>
          obtain ⟨rfl,rfl,rfl⟩ := hbuilt
          exact ⟨hdatabase,hredis,rfl⟩

end Start

/-! ## Every way to end -/

section Stop

open Handles

variable {KeyPair CertPool : Type} {needs : Needs}

/-- The listener failed under the process, or this was shut down, or there was no listener. -/
inductive Stopped (needs : Needs) : Except (List ProcessError) Unit → Handles → Prop
  | ended {s : Handles} (err : ProcessError) (hended : s.ended = some err) (hheld : s.Held needs) :
    Stopped needs (if err = .serverClosed then .ok () else .error [err]) s
  | down {s : Handles} {result : Except (List ProcessError) Unit}
    (hresult : result = if s.errors = [] then .ok () else .error s.errors) (hended : s.ended = none)
    (hdrained : s.Drained) (hdatabase : s.database ≠ .opened) (hredis : s.redis ≠ .opened) :
    Stopped needs result s
  | unheard {s : Handles} (err : String) (hs : s.Released) : Stopped needs (.error [.other err]) s

theorem closing_reply {has : Bool} {reply : Except ProcessError Unit} (h : has = false → reply = .ok ()) :
    (closing has reply).reply.bind errorOf = errorOf reply := by
  cases has with
  | false =>
    rw [h rfl]
    rfl
  | true => rfl

theorem joinErrors_eq {ocppErr httpErr databaseErr redisErr : Except ProcessError Unit}
    {hasDatabase hasRedis : Bool} (hdatabase : hasDatabase = false → databaseErr = .ok ())
    (hredis : hasRedis = false → redisErr = .ok ()) {s : Handles} (hocpp : s.ocpp = some ocppErr)
    (hhttp : s.http = some httpErr) (hs : s.database = closing hasDatabase databaseErr)
    (hs' : s.redis = closing hasRedis redisErr) :
    joinErrors [ocppErr,httpErr,databaseErr,redisErr] =
      if s.errors = [] then .ok () else .error s.errors := by
  have herrors : s.errors = [ocppErr,httpErr,databaseErr,redisErr].filterMap errorOf := by
    simp only [Handles.errors,hocpp,hhttp,hs,hs',List.filterMap_cons,closing_reply hdatabase,
      closing_reply hredis,Option.bind_some,List.filterMap_nil]
  rw [herrors,joinErrors]

theorem follows_startConsumer {hasRedis : Bool} {s : Handles}
    (hs : s.redis = if hasRedis then .opened else .unopened) :
    Follows (Handles.advance needs) (fun _ s' => s' = s) (startConsumer hasRedis) s := by
  cases hasRedis with
  | false => rfl
  | true =>
    intro _
    exact ⟨s,if_pos hs,rfl⟩

theorem follows_shutDown (server : Server KeyPair CertPool) {database redis : Handle}
    (hdatabase : database = if server.hasDatabase then .opened else .unopened)
    (hredis : redis = if server.commandPath.isSome then .opened else .unopened) :
    Follows (Handles.advance needs) (Stopped needs) (shutDown server)
      ⟨database,redis,true,none,false,none,none⟩ := by
  intro _
  refine ⟨_,rfl,?_⟩
  intro _
  refine ⟨⟨database,redis,true,none,true,none,none⟩,rfl,?_⟩
  intro ocppErr
  change Except ProcessError Unit at ocppErr
  refine ⟨⟨database,redis,true,none,true,some ocppErr,none⟩,rfl,?_⟩
  intro httpErr
  change Except ProcessError Unit at httpErr
  refine ⟨⟨database,redis,true,none,true,some ocppErr,some httpErr⟩,rfl,?_⟩
  apply (follows_closeDatabase (.inr ⟨rfl,rfl,rfl⟩) hdatabase).bind
  rintro databaseErr s ⟨rfl,hnoDatabase⟩
  apply (follows_closeRedis (.inr ⟨rfl,rfl,rfl⟩) hredis).bind
  rintro redisErr s ⟨rfl,hnoRedis⟩ _
  refine ⟨⟨closing server.hasDatabase databaseErr,closing server.commandPath.isSome redisErr,true,none,true,
    some ocppErr,some httpErr⟩,rfl,?_⟩
  exact .down (joinErrors_eq hnoDatabase hnoRedis rfl rfl rfl rfl) rfl ⟨rfl,rfl,rfl⟩
    (closing_ne_opened _ _) (closing_ne_opened _ _)

theorem follows_serve (server : Server KeyPair CertPool) :
    Follows (Handles.advance ⟨server.hasDatabase,server.commandPath.isSome⟩)
      (Stopped ⟨server.hasDatabase,server.commandPath.isSome⟩) (serve server)
      (holding server.hasDatabase server.commandPath.isSome) := by
  intro _
  refine ⟨_,rfl,?_⟩
  intro _
  refine ⟨_,if_pos ⟨rfl,rfl,rfl⟩,?_⟩
  apply (follows_startConsumer rfl).bind
  rintro _ s rfl selected
  cases (selected : Selected) with
  | served err =>
    refine ⟨{ holding server.hasDatabase server.commandPath.isSome with
      serving := true, ended := some err },rfl,?_⟩
    intro _
    refine ⟨_,rfl,?_⟩
    intro _
    exact ⟨_,rfl,.ended err rfl ⟨rfl,rfl⟩⟩
  | cancelled => exact ⟨_,rfl,follows_shutDown server rfl rfl⟩

theorem follows_runServer (server : Server KeyPair CertPool) :
    Follows (Handles.advance ⟨server.hasDatabase,server.commandPath.isSome⟩)
      (Stopped ⟨server.hasDatabase,server.commandPath.isSome⟩) (runServer server)
      (holding server.hasDatabase server.commandPath.isSome) := by
  intro heard
  refine ⟨_,rfl,?_⟩
  cases (heard : Except String Unit) with
  | error err =>
    apply (follows_closeDatabase (.inl rfl) rfl).bind
    rintro _ s ⟨rfl,_⟩
    apply (follows_closeRedis (.inl rfl) rfl).bind
    rintro _ s ⟨rfl,_⟩
    exact .unheard err ⟨closing_ne_opened _ _,closing_ne_opened _ _,rfl,rfl⟩
  | ok u => exact follows_serve server

/-- The ends that the process reports as a success. -/
def Handles.Succeeded (s : Handles) : Prop :=
  (∃ err, s.ended = some err ∧ (err = .serverClosed ∨ err = .canceled)) ∨
    s.ended = none ∧ s.Drained ∧ (s.errors = [] ∨ .canceled ∈ s.errors)

/-- What holds when the process exits. -/
structure Exited (needs : Needs) (code : Nat) (s : Handles) : Prop where
  released : s.ended = none → s.database ≠ .opened ∧ s.redis ≠ .opened
  ended : s.ended ≠ none → s.Held needs
  zero : code = 0 ↔ s.Succeeded
  atMost : code ≤ 1

variable {s : Handles}

theorem exited_released (h : s.Released) {code : Nat} (hcode : code = 1) : Exited needs code s where
  released _ := ⟨h.database,h.redis⟩
  ended hended := absurd h.ended hended
  zero := by
    simp [Handles.Succeeded,Drained,h.ended,h.ocpp,hcode]
  atMost := by omega

theorem exitCode_le (result : Except (List ProcessError) Unit) : exitCode result ≤ 1 := by
  unfold exitCode
  split
  · split <;> decide
  · decide

theorem exited_stopped {result : Except (List ProcessError) Unit} (h : Stopped needs result s) :
    Exited needs (exitCode result) s := by
  cases h with
  | ended err hended hheld =>
    refine ⟨fun hnone => ?_,fun _ => hheld,?_,exitCode_le _⟩
    · cases hended.symm.trans hnone
    · cases err <;> simp [exitCode,Handles.Succeeded,hended]
  | down hresult hended hdrained hdatabase hredis =>
    refine ⟨fun _ => ⟨hdatabase,hredis⟩,fun hne => absurd hended hne,?_,exitCode_le _⟩
    subst hresult
    by_cases herrors : s.errors = []
    · simp [exitCode,Handles.Succeeded,hended,hdrained,herrors]
    · simp [exitCode,Handles.Succeeded,hended,hdrained,herrors]
  | unheard err hs => exact exited_released hs (by simp [exitCode])

theorem follows_main (host : Host KeyPair CertPool) (migration : String) {lookup : Environment}
    {config : Config} (hload : loadConfig lookup = .ok config) :
    Follows (Handles.advance config.needs) (Exited config.needs) (main host migration lookup) {} := by
  unfold main
  rw [hload]
  apply (follows_newServer host migration config).bind
  intro built s hbuilt
  cases built with
  | error err => exact exited_released hbuilt rfl
  | ok server =>
    obtain ⟨hdatabase,hredis,rfl⟩ := hbuilt
    have hneeds : config.needs = ⟨server.hasDatabase,server.commandPath.isSome⟩ := by
      rw [hdatabase,hredis]
    rw [hneeds]
    apply (follows_runServer server).bind
    intro result s hstopped
    exact exited_stopped hstopped

end Stop

/-- However the host replies, the main goroutine makes no call on a handle that is not open and opens and
closes none twice. It starts the other goroutines with the configured handles open and keeps them open
until it has told the consumer to stop and both shutdowns have returned; for the consumer itself, or a
session that a shutdown gave up on, it does not wait. It exits with all of them closed, unless its listener
failed while it served, and with 0 just if that was a closed server or a cancelled context, or if it was
shut down without an error or with a cancelled context among the errors. -/
theorem process_releases {KeyPair CertPool : Type} (host : Host KeyPair CertPool) (migration : String)
    (lookup : Environment) {trace : List (Sigma HostReply)} {code : Nat}
    (h : Runs (main host migration lookup) trace code) :
    (code = 2 ↔ ∃ err, loadConfig lookup = .error err) ∧
    ∀ config, loadConfig lookup = .ok config →
      (∀ before after, trace = before ++ after → ∃ s,
        advanceAll (Handles.advance config.needs) before {} = some s ∧
        (s.serving = true → s.Drained ∨ s.Held config.needs)) ∧
      ∃ s, advanceAll (Handles.advance config.needs) trace {} = some s ∧
        (s.ended = none → s.database ≠ .opened ∧ s.redis ≠ .opened) ∧
        (s.ended ≠ none → s.Held config.needs) ∧ (code = 0 ↔ s.Succeeded) := by
  cases hload : loadConfig lookup with
  | error err =>
    unfold main at h
    rw [hload] at h
    obtain ⟨_,rfl⟩ := runs_done.mp h
    simp
  | ok config =>
    obtain ⟨s,hs,hexited⟩ := (follows_main host migration hload).runs h
    refine ⟨?_,?_⟩
    · have hcode : code ≠ 2 := fun htwo => absurd (htwo ▸ hexited.atMost) (by decide)
      simp [hcode]
    rintro config' hconfig
    cases hconfig
    refine ⟨?_,s,hs,hexited.released,hexited.ended,hexited.zero⟩
    rintro before after rfl
    rw [advanceAll_append] at hs
    obtain ⟨mid,hmid,_⟩ := Option.bind_eq_some_iff.mp hs
    have hfresh : Handles.Serves config.needs {} := fun hserving => by cases hserving
    exact ⟨mid,hmid,advanceAll_keeps (fun _ _ _ _ hstep hserves => hserves.advance hstep) hfresh hmid⟩

/-- A session outlives the time that the shutdown of the OCPP server is given. -/
def sessionLeft (call : HostCall) : HostReply call :=
  match call with
  | .openMySQL _ | .pingMySQL | .execMySQL _ | .register _ | .parseRedisURL _ | .pingRedis
  | .newIPRateLimiter _ | .newOcppServer _ | .listen _ => (.ok () : Except String Unit)
  | .hostname => (.ok "runtime-a" : Except String String)
  | .newRedisClient | .setReady _ | .goServe _ | .goConsumer | .cancelRun => ()
  | .shutdownOCPP => (.error (.other "context deadline exceeded") : Except ProcessError Unit)
  | .closeMySQL | .closeRedis | .shutdownHTTP => (.ok () : Except ProcessError Unit)
  | .select => Selected.cancelled

def bothStores : Environment := fun name =>
  if name = "CSMS_MYSQL_DSN" then some "csms@tcp(mysql)/csms"
  else if name = "CSMS_REDIS_URL" then some "redis://redis:6379/0"
  else none

/-- The handles are closed all the same, and the exit code tells. -/
theorem process_releases_sessionLeft :
    let run := traceOf sessionLeft (main (readyHost fun _ => .missing) "CREATE TABLE t; " bothStores)
    run.2 = 1 ∧ run.1.length = 22 ∧ ∃ config s, loadConfig bothStores = .ok config ∧
      advanceAll (Handles.advance config.needs) run.1 {} = some s ∧
      s.database = .closed (.ok ()) ∧ s.redis = .closed (.ok ()) ∧ ¬s.Succeeded := by
  intro run
  obtain ⟨_,hends⟩ := process_releases (readyHost fun _ => .missing) "CREATE TABLE t; " bothStores
    (runs_traceOf sessionLeft _)
  have hload : (loadConfig bothStores).toOption.map Config.needs = some ⟨true,true⟩ := by decide +kernel
  cases hconfig : loadConfig bothStores with
  | error err =>
    rw [hconfig] at hload
    cases hload
  | ok config =>
    rw [hconfig] at hload
    have hneeds : config.needs = ⟨true,true⟩ := Option.some.inj hload
    obtain ⟨_,s,hs,_,_,hzero⟩ := hends config hconfig
    have hcode : run.2 = 1 := by decide +kernel
    have hend : advanceAll (Handles.advance ⟨true,true⟩) run.1 {} =
        some ⟨.closed (.ok ()),.closed (.ok ()),true,none,true,some (.error (.other "context deadline exceeded")),
          some (.ok ())⟩ := by decide +kernel
    refine ⟨hcode,by decide +kernel,config,s,rfl,hs,?_⟩
    rw [hneeds] at hs
    cases hend.symm.trans hs
    refine ⟨rfl,rfl,fun hsucceeded => ?_⟩
    have hclean := hzero.mpr hsucceeded
    change run.2 = 0 at hclean
    rw [hcode] at hclean
    cases hclean

end CsmsPlatform.Runtime
