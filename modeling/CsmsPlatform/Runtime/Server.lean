import CsmsPlatform.CommandBus.Keys
import CsmsPlatform.Runtime.Config
import CsmsPlatform.Runtime.TrustedProxy

/-!
# Building the server

Whether the server speaks TLS and asks stations for a certificate is read off the files that exist.
Certificates, the database, Redis and the OCPP library answer from outside the process.
-/

namespace CsmsPlatform.Runtime

/-! ## Files -/

/-- What a path names. Whether a file can be examined, as with `os.Stat`, and what reading it gives are
two questions. -/
inductive FileNode where
  | missing
  | directory
  | file (contents : Except String (List UInt8))
  | unexaminable (contents : Except String (List UInt8))

abbrev FileSystem := String → FileNode

def FileNode.isFile : FileNode → Bool
  | .missing => false
  | .directory => false
  | .file _ => true
  | .unexaminable _ => true

def FileNode.examinable : FileNode → Bool
  | .unexaminable _ => false
  | _ => true

def namesFile (files : FileSystem) (path : String) : Bool :=
  path ≠ "" && (files path).isFile

def fileExists (files : FileSystem) (path : String) : Bool :=
  if path = "" then false
  else
    match files path with
    | .missing => false
    | .directory => false
    | .file _ => true
    | .unexaminable _ => false

theorem fileExists_iff {files : FileSystem} {path : String} :
    fileExists files path = true ↔ namesFile files path = true ∧ (files path).examinable = true := by
  unfold fileExists namesFile
  by_cases hpath : path = ""
  · simp [hpath]
  · cases files path <;> simp [hpath,FileNode.isFile,FileNode.examinable]

def readFile (files : FileSystem) (path : String) : Except String (List UInt8) :=
  match files path with
  | .missing => .error ("open " ++ path ++ ": no such file or directory")
  | .directory => .error ("read " ++ path ++ ": is a directory")
  | .file contents => contents
  | .unexaminable contents => contents

def during {α : Type} (step : String) (outcome : Except String α) : Except String α :=
  outcome.mapError fun err => step ++ ": " ++ err

/-! ## The configuration handed to the OCPP library -/

structure Certificate where
  commonName : String
deriving DecidableEq, Repr

structure ConnectionState where
  peerCertificates : List Certificate
deriving DecidableEq, Repr

structure AuthenticationRequest where
  identity : String
  tls : Option ConnectionState
deriving DecidableEq, Repr

structure Principal where
  id : String
deriving DecidableEq, Repr

abbrev Authenticator := AuthenticationRequest → Except String Principal

inductive SecurityProfile where
  | tlsClientCertificate
deriving DecidableEq, Repr

def versionTLS12 : UInt16 := 0x0303

structure Security where
  handshakeRateLimit : Int
  resolver : TrustedProxyResolver
  profile : Option SecurityProfile
  minTLSVersion : UInt16
  authenticator : Option Authenticator

structure OwnershipSettings where
  ownerID : String
  ttl : Int64
  renewInterval : Int64
deriving DecidableEq, Repr

structure OcppConfig where
  versions : List ProtocolVersion
  ownership : Option OwnershipSettings
  security : Security

/-! ## TLS -/

inductive ClientAuthType where
  | noClientCert
  | requestClientCert
  | requireAnyClientCert
  | verifyClientCertIfGiven
  | requireAndVerifyClientCert
deriving DecidableEq, Repr

structure TLSConfig (KeyPair CertPool : Type) where
  certificate : KeyPair
  minVersion : UInt16
  clientCAs : Option CertPool
  clientAuth : ClientAuthType

/-- What the process finds on its host and what the code outside it answers. -/
structure Host (KeyPair CertPool : Type) where
  files : FileSystem
  x509KeyPair : List UInt8 → List UInt8 → Except String KeyPair
  appendCertsFromPEM : List UInt8 → Option CertPool
  openMySQL : String → Except String Unit
  pingMySQL : Except String Unit
  migrate : Except String Unit
  register : Int → Except String Unit
  parseRedisURL : String → Except String Unit
  pingRedis : Except String Unit
  hostname : Except String String
  newIPRateLimiter : Int → Except String Unit
  newOcppServer : OcppConfig → Except String Unit

section Build

variable {KeyPair CertPool : Type} (host : Host KeyPair CertPool) (config : Config)

def loadX509KeyPair (certFile keyFile : String) : Except String KeyPair := do
  let cert ← readFile host.files certFile
  let key ← readFile host.files keyFile
  host.x509KeyPair cert key

def withClientCAs (tlsConfig : TLSConfig KeyPair CertPool) : Except String (TLSConfig KeyPair CertPool) :=
  if fileExists host.files config.tlsClientCAFile then do
    let caBytes ← during "read TLS client CA file" (readFile host.files config.tlsClientCAFile)
    match host.appendCertsFromPEM caBytes with
    | none => .error ("no valid certificates found in TLS client CA file " ++ config.tlsClientCAFile)
    | some pool => .ok { tlsConfig with clientCAs := some pool,clientAuth := .verifyClientCertIfGiven }
  else .ok tlsConfig

def buildTLSConfig : Except String (Option (TLSConfig KeyPair CertPool)) :=
  let certExists := fileExists host.files config.tlsCertFile
  let keyExists := fileExists host.files config.tlsKeyFile
  -- the CA file has not been looked at yet
  if !certExists && !keyExists then .ok none
  else if certExists != keyExists then
    .error ("TLS requires both a certificate and a key file: cert=" ++ config.tlsCertFile ++ " (exists=" ++
      toString certExists ++ ") key=" ++ config.tlsKeyFile ++ " (exists=" ++ toString keyExists ++ ")")
  else do
    let certificate ← during "load TLS certificate"
      (loadX509KeyPair host config.tlsCertFile config.tlsKeyFile)
    let tlsConfig ← withClientCAs host config ⟨certificate,versionTLS12,none,.noClientCert⟩
    return some tlsConfig

/-! ## The server -/

structure CommandPath where
  ownership : OwnershipSettings
  commandBus : Bus
  rateLimiter : RateLimiter
deriving DecidableEq, Repr

structure Server (KeyPair CertPool : Type) where
  config : Config
  ocpp : OcppConfig
  hasDatabase : Bool
  commandPath : Option CommandPath
  tlsConfig : Option (TLSConfig KeyPair CertPool)

def openDatabase : Except String Bool := do
  if config.mysqlDSN = "" then
    return false
  during "open mysql" (host.openMySQL config.mysqlDSN)
  during "ping mysql" host.pingMySQL
  host.migrate
  return true

def connectRedis : Except String (Option CommandPath) := do
  if config.redisURL = "" then
    return none
  during "parse redis URL" (host.parseRedisURL config.redisURL)
  during "ping redis" host.pingRedis
  let instanceID ←
    if config.instanceID = "" then during "resolve runtime instance ID" host.hostname
    else pure config.instanceID
  return some {
    ownership := ⟨instanceID,config.sessionLeaseTTL,config.sessionRenew⟩
    commandBus := .new "csms" 300000000000
    rateLimiter := ⟨"csms",.ofInt config.commandRateLimit,60000000000⟩ }

/-- A station must show a certificate issued to it. -/
def authenticateStation : Authenticator := fun request =>
  match request.tls with
  | none => .error "client certificate is required"
  | some state =>
    match state.peerCertificates with
    | [] => .error "client certificate is required"
    | first::_ =>
      if first.commonName ≠ request.identity then
        .error ("client certificate CN \"" ++ first.commonName ++ "\" does not match station identity \"" ++
          request.identity ++ "\"")
      else .ok ⟨request.identity⟩

def ocppSecurity (tlsConfig : Option (TLSConfig KeyPair CertPool)) (handshakeRateLimit : Int)
    (resolver : TrustedProxyResolver) : Security :=
  match tlsConfig with
  | none => ⟨handshakeRateLimit,resolver,none,0,none⟩
  | some tls =>
    if tls.clientAuth = .verifyClientCertIfGiven then
      ⟨handshakeRateLimit,resolver,some .tlsClientCertificate,versionTLS12,some authenticateStation⟩
    else ⟨handshakeRateLimit,resolver,none,0,none⟩

/-- `New`, in the order of the source. -/
def Server.new : Except String (Server KeyPair CertPool) := do
  let tlsConfig ← buildTLSConfig host config
  let hasDatabase ← openDatabase host config
  host.register config.heartbeatInterval
  let commandPath ← connectRedis host config
  let handshakeRateLimit := if config.handshakeRateLimit ≤ 0 then 30 else config.handshakeRateLimit
  during "create handshake rate limiter" (host.newIPRateLimiter handshakeRateLimit)
  let resolver ← during "create trusted proxy resolver"
    ((newTrustedProxyResolver config.trustedProxyCIDRs).mapError ResolverError.message)
  let ocpp : OcppConfig := {
    versions := config.versions
    ownership := commandPath.map CommandPath.ownership
    security := ocppSecurity tlsConfig handshakeRateLimit resolver }
  host.newOcppServer ocpp
  return ⟨config,ocpp,hasDatabase,commandPath,tlsConfig⟩

variable {host config}

theorem withClientCAs_clientAuth {tls tls' : TLSConfig KeyPair CertPool}
    (hnone : tls.clientAuth = .noClientCert) (h : withClientCAs host config tls = .ok tls') :
    tls'.clientAuth = .verifyClientCertIfGiven ↔ fileExists host.files config.tlsClientCAFile = true := by
  unfold withClientCAs at h
  by_cases hca : fileExists host.files config.tlsClientCAFile = true
  · rw [if_pos hca] at h
    obtain ⟨caBytes,_,h⟩ := Program.except_bind_eq_ok.mp h
    cases hpool : host.appendCertsFromPEM caBytes with
    | none =>
      rw [hpool] at h
      cases h
    | some pool =>
      rw [hpool] at h
      cases h
      simp [hca]
  · rw [if_neg hca] at h
    cases h
    simp [hnone,hca]

theorem buildTLSConfig_files {tlsConfig : Option (TLSConfig KeyPair CertPool)}
    (h : buildTLSConfig host config = .ok tlsConfig) :
    (tlsConfig.isSome ↔ fileExists host.files config.tlsCertFile = true ∨
      fileExists host.files config.tlsKeyFile = true) ∧
    ∀ tls, tlsConfig = some tls →
      (tls.clientAuth = .verifyClientCertIfGiven ↔ fileExists host.files config.tlsClientCAFile = true) := by
  unfold buildTLSConfig at h
  dsimp only at h
  by_cases hoff : (!fileExists host.files config.tlsCertFile &&
      !fileExists host.files config.tlsKeyFile) = true
  · rw [if_pos hoff] at h
    cases h
    simp only [Bool.and_eq_true,Bool.not_eq_true'] at hoff
    simp [hoff]
  · rw [if_neg hoff] at h
    split at h
    · cases h
    · obtain ⟨certificate,_,h⟩ := Program.except_bind_eq_ok.mp h
      obtain ⟨tls,htls,h⟩ := Program.except_bind_eq_ok.mp h
      cases h
      have hon : fileExists host.files config.tlsCertFile = true ∨
          fileExists host.files config.tlsKeyFile = true := by
        simpa [Decidable.imp_iff_not_or] using hoff
      refine ⟨by simpa using hon,?_⟩
      intro tls' htls'
      cases htls'
      exact withClientCAs_clientAuth rfl htls

theorem Server.new_ok {server : Server KeyPair CertPool} (h : Server.new host config = .ok server) :
    buildTLSConfig host config = .ok server.tlsConfig ∧
      ∃ limit resolver, server.ocpp.security = ocppSecurity server.tlsConfig limit resolver := by
  unfold Server.new at h
  obtain ⟨tlsConfig,htls,h⟩ := Program.except_bind_eq_ok.mp h
  obtain ⟨hasDatabase,_,h⟩ := Program.except_bind_eq_ok.mp h
  obtain ⟨_,_,h⟩ := Program.except_bind_eq_ok.mp h
  obtain ⟨commandPath,_,h⟩ := Program.except_bind_eq_ok.mp h
  obtain ⟨_,_,h⟩ := Program.except_bind_eq_ok.mp h
  obtain ⟨resolver,_,h⟩ := Program.except_bind_eq_ok.mp h
  obtain ⟨_,_,h⟩ := Program.except_bind_eq_ok.mp h
  cases h
  exact ⟨htls,_,resolver,rfl⟩

end Build

/-! ## Who is let in -/

/-- The upgrade passes the authentication that is configured. -/
def Authenticates (security : Security) (request : AuthenticationRequest) : Prop :=
  match security.profile with
  | none => True
  | some .tlsClientCertificate =>
    ∃ authenticator principal, security.authenticator = some authenticator ∧
      authenticator request = .ok principal

/-- What the library is relied on for. -/
structure OcppLibrary (admits : Security → AuthenticationRequest → Prop) : Prop where
  clientCertificate : ∀ security request authenticator,
    security.profile = some .tlsClientCertificate → security.authenticator = some authenticator →
    admits security request → ∃ principal, authenticator request = .ok principal
  unprotected : ∀ security request, security.profile = none → admits security request

/-- The upgrade carries a peer certificate, and the first is issued to the station. -/
def CarriesIdentity (request : AuthenticationRequest) : Prop :=
  ∃ state first rest, request.tls = some state ∧ state.peerCertificates = first::rest ∧
    first.commonName = request.identity

theorem authenticateStation_ok_iff (request : AuthenticationRequest) :
    (∃ principal, authenticateStation request = .ok principal) ↔ CarriesIdentity request := by
  unfold authenticateStation CarriesIdentity
  cases htls : request.tls with
  | none => simp
  | some state =>
    cases hcerts : state.peerCertificates with
    | nil => simp [hcerts]
    | cons first rest => by_cases hname : first.commonName = request.identity <;> simp [hcerts,hname]

section Admission

variable {KeyPair CertPool : Type} {host : Host KeyPair CertPool} {config : Config}
  {server : Server KeyPair CertPool}

/-- The station must show its certificate, and the authenticator looks at it. -/
def Security.ClientCertificate (security : Security) : Prop :=
  security.profile = some .tlsClientCertificate ∧ security.authenticator = some authenticateStation

/-- The three files decide, and nothing else. -/
theorem Server.security_of_files (hnew : Server.new host config = .ok server) :
    if (fileExists host.files config.tlsCertFile = true ∨ fileExists host.files config.tlsKeyFile = true) ∧
      fileExists host.files config.tlsClientCAFile = true
    then server.ocpp.security.ClientCertificate else server.ocpp.security.profile = none := by
  obtain ⟨htls,limit,resolver,hsecurity⟩ := Server.new_ok hnew
  obtain ⟨hsome,hauth⟩ := buildTLSConfig_files htls
  simp only [hsecurity,← hsome]
  cases hserver : server.tlsConfig with
  | none => simp [ocppSecurity]
  | some tls =>
    simp only [← hauth tls hserver]
    by_cases hverify : tls.clientAuth = .verifyClientCertIfGiven
    · simp [ocppSecurity,Security.ClientCertificate,hverify]
    · simp [ocppSecurity,hverify]

theorem authenticates_protected {security : Security} (h : security.ClientCertificate)
    (request : AuthenticationRequest) : Authenticates security request ↔ CarriesIdentity request := by
  rw [← authenticateStation_ok_iff]
  simp [Authenticates,h.1,h.2]

theorem not_carriesIdentity_anonymous (identity : String) : ¬CarriesIdentity ⟨identity,none⟩ := by
  rintro ⟨state,_,_,hstate,_⟩
  cases hstate

theorem Server.authenticates_iff (hnew : Server.new host config = .ok server) :
    (∀ request, Authenticates server.ocpp.security request ↔ CarriesIdentity request) ↔
      (fileExists host.files config.tlsCertFile = true ∨ fileExists host.files config.tlsKeyFile = true) ∧
        fileExists host.files config.tlsClientCAFile = true := by
  have hsecurity := Server.security_of_files hnew
  split_ifs at hsecurity with hfiles
  · exact iff_of_true (authenticates_protected hsecurity) hfiles
  · refine iff_of_false (fun hall => not_carriesIdentity_anonymous "" ((hall _).mp ?_)) hfiles
    rw [Authenticates,hsecurity]
    trivial

theorem Server.admits_iff (hnew : Server.new host config = .ok server)
    {admits : Security → AuthenticationRequest → Prop} (hlibrary : OcppLibrary admits) :
    (∀ request, admits server.ocpp.security request → CarriesIdentity request) ↔
      (fileExists host.files config.tlsCertFile = true ∨ fileExists host.files config.tlsKeyFile = true) ∧
        fileExists host.files config.tlsClientCAFile = true := by
  have hsecurity := Server.security_of_files hnew
  split_ifs at hsecurity with hfiles
  · refine iff_of_true (fun request hadmits => ?_) hfiles
    obtain ⟨hprofile,hauthenticator⟩ := hsecurity
    exact (authenticateStation_ok_iff request).mp
      (hlibrary.clientCertificate _ _ _ hprofile hauthenticator hadmits)
  · exact iff_of_false (fun hall => not_carriesIdentity_anonymous ""
      (hall _ (hlibrary.unprotected _ _ hsecurity))) hfiles

end Admission

/-- With a client CA file in place, the built server authenticates exactly the stations that carry
their own certificate, and the library lets in no other, if and only if the CA file can be examined and
there is a server certificate or key file too. -/
theorem mutualTLS_enforced_iff {KeyPair CertPool : Type} (host : Host KeyPair CertPool) (config : Config)
    (server : Server KeyPair CertPool)
    (hca : namesFile host.files config.tlsClientCAFile = true)
    (hnew : Server.new host config = .ok server)
    (admits : Security → AuthenticationRequest → Prop) (hlibrary : OcppLibrary admits) :
    let found := (fileExists host.files config.tlsCertFile = true ∨
      fileExists host.files config.tlsKeyFile = true) ∧
      (host.files config.tlsClientCAFile).examinable = true
    ((∀ request, Authenticates server.ocpp.security request ↔ CarriesIdentity request) ↔ found) ∧
    ((∀ request, admits server.ocpp.security request → CarriesIdentity request) ↔ found) := by
  intro found
  have hexists : fileExists host.files config.tlsClientCAFile = true ↔
      (host.files config.tlsClientCAFile).examinable = true :=
    fileExists_iff.trans (and_iff_right hca)
  constructor
  · rw [Server.authenticates_iff hnew,hexists]
  · rw [Server.admits_iff hnew hlibrary,hexists]

def pem (kind : String) : List UInt8 :=
  ("-----BEGIN " ++ kind ++ "-----").toList.map fun c => UInt8.ofNat c.toNat

def readyHost (files : FileSystem) : Host Unit Unit where
  files := files
  x509KeyPair cert key :=
    if cert = pem "CERTIFICATE" ∧ key = pem "PRIVATE KEY" then .ok ()
    else .error "tls: failed to find any PEM data in certificate input"
  appendCertsFromPEM caBytes := if caBytes = pem "CERTIFICATE" then some () else none
  openMySQL _ := .ok ()
  pingMySQL := .ok ()
  migrate := .ok ()
  register _ := .ok ()
  parseRedisURL _ := .ok ()
  pingRedis := .ok ()
  hostname := .ok "runtime-a"
  newIPRateLimiter _ := .ok ()
  newOcppServer _ := .ok ()

theorem authenticates_library : OcppLibrary Authenticates where
  clientCertificate security request authenticator hprofile hauthenticator h := by
    rw [Authenticates,hprofile] at h
    obtain ⟨_,principal,hsome,hok⟩ := h
    cases hauthenticator.symm.trans hsome
    exact ⟨principal,hok⟩
  unprotected security request hprofile := by
    rw [Authenticates,hprofile]
    trivial

theorem mutualTLS_enforced_threeFiles :
    let files : FileSystem := fun path =>
      if path = "/etc/csms/tls/server/tls.key" then .file (.ok (pem "PRIVATE KEY"))
      else if path = "/etc/csms/tls/server/tls.crt" ∨ path = "/etc/csms/tls/ca/ca.crt" then
        .file (.ok (pem "CERTIFICATE"))
      else .missing
    ∃ server, Server.new (readyHost files) {} = .ok server ∧
      ∀ request, Authenticates server.ocpp.security request ↔ CarriesIdentity request := by
  intro files
  exact ⟨_,rfl,(mutualTLS_enforced_iff (readyHost files) {} _ (by decide) rfl Authenticates
    authenticates_library).1.mpr ⟨.inl (by decide),rfl⟩⟩

/-- With the CA file alone the server is built without TLS, and a station without any certificate is
let in. -/
theorem mutualTLS_failsOpen :
    let files : FileSystem := fun path =>
      if path = "/etc/csms/tls/ca/ca.crt" then .file (.ok (pem "CERTIFICATE")) else .missing
    namesFile files ({} : Config).tlsClientCAFile = true ∧
    ∃ server, Server.new (readyHost files) {} = .ok server ∧ server.tlsConfig = none ∧
      Authenticates server.ocpp.security ⟨"station-1",none⟩ ∧
      (∀ admits, OcppLibrary admits → admits server.ocpp.security ⟨"station-1",none⟩) ∧
      ¬CarriesIdentity ⟨"station-1",none⟩ := by
  intro files
  exact ⟨by decide,_,rfl,rfl,trivial,fun admits hlibrary => hlibrary.unprotected _ _ rfl,
    not_carriesIdentity_anonymous _⟩

end CsmsPlatform.Runtime
