import CsmsPlatform.Framework.Rfc3339
import CsmsPlatform.StationStore.Projection

/-!
# Notifications of the stations and their records

The nine handlers that the router is given, over any repository. A handler reads the clock once, makes
at most one call to the repository and returns its confirmation together with that call's error. Over
MySQL any number of them run at a time, step by step, and any statement may fail.
-/

namespace CsmsPlatform.StationStore

open Program

/-! ## Requests and confirmations -/

structure Session where
  identity : String
  version : String
deriving DecidableEq, Repr

namespace V16

structure BootNotificationRequest where
  chargePointVendor : String
  chargePointModel : String
  chargePointSerialNumber : Option String
  chargeBoxSerialNumber : Option String
  firmwareVersion : Option String
deriving DecidableEq, Repr

structure StatusNotificationRequest where
  connectorID : Int
  errorCode : String
  status : String
  timestamp : Option String
deriving DecidableEq, Repr

end V16

/-! Versions 2.0.1 and 2.1 have the fields that the handlers read in common. -/

namespace V2

structure ChargingStation where
  vendorName : String
  model : String
  serialNumber : Option String
  firmwareVersion : Option String
deriving DecidableEq, Repr

structure BootNotificationRequest where
  chargingStation : ChargingStation
  reason : String
deriving DecidableEq, Repr

structure StatusNotificationRequest where
  timestamp : String
  connectorStatus : String
  evseID : Int
  connectorID : Int
deriving DecidableEq, Repr

end V2

inductive Request where
  | bootNotification16 (request : V16.BootNotificationRequest)
  | bootNotification201 (request : V2.BootNotificationRequest)
  | bootNotification21 (request : V2.BootNotificationRequest)
  | heartbeat16
  | heartbeat201
  | heartbeat21
  | statusNotification16 (request : V16.StatusNotificationRequest)
  | statusNotification201 (request : V2.StatusNotificationRequest)
  | statusNotification21 (request : V2.StatusNotificationRequest)
deriving DecidableEq, Repr

inductive RegistrationStatus where
  | accepted
  | pending
  | rejected
deriving DecidableEq, Repr

inductive Confirmation where
  | bootNotification (currentTime : String) (interval : Int) (status : RegistrationStatus)
  | heartbeat (currentTime : String)
  | statusNotification
deriving DecidableEq, Repr

structure Answer where
  confirmation : Confirmation
  err : Except StoreError Unit
deriving DecidableEq, Repr

/-! ## The handlers -/

def value (pointer : Option String) : String := pointer.getD ""

def firstString : List (Option String) → String
  | [] => ""
  | none::rest => firstString rest
  | some candidate::rest => if candidate ≠ "" then candidate else firstString rest

/-- `time.RFC3339` is written to the second, and read more leniently. -/
def formatTime (time : Int) : String := String.ofList (Rfc3339.formatSeconds time)

def requiredTime (text : String) (fallback : Int) : Int :=
  (Rfc3339.parseLenient text.toList).getD fallback

def optionalTime (text : Option String) (fallback : Int) : Int :=
  match text with
  | none => fallback
  | some text => requiredTime text fallback

def bootedStation16 (session : Session) (request : V16.BootNotificationRequest) (bootedAt : Int) :
    Station where
  identity := session.identity
  version := session.version
  vendor := request.chargePointVendor
  model := request.chargePointModel
  serialNumber := firstString [request.chargePointSerialNumber,request.chargeBoxSerialNumber]
  firmwareVersion := value request.firmwareVersion
  bootReason := ""
  lastBootAt := bootedAt

def bootedStation2 (session : Session) (request : V2.BootNotificationRequest) (bootedAt : Int) :
    Station where
  identity := session.identity
  version := session.version
  vendor := request.chargingStation.vendorName
  model := request.chargingStation.model
  serialNumber := value request.chargingStation.serialNumber
  firmwareVersion := value request.chargingStation.firmwareVersion
  bootReason := request.reason
  lastBootAt := bootedAt

def connectorStatus16 (session : Session) (request : V16.StatusNotificationRequest) (receivedAt : Int) :
    ConnectorStatus where
  stationIdentity := session.identity
  version := session.version
  evseID := 0
  connectorID := request.connectorID
  status := request.status
  errorCode := request.errorCode
  occurredAt := optionalTime request.timestamp receivedAt
  receivedAt := receivedAt

def connectorStatus2 (session : Session) (request : V2.StatusNotificationRequest) (receivedAt : Int) :
    ConnectorStatus where
  stationIdentity := session.identity
  version := session.version
  evseID := request.evseID
  connectorID := request.connectorID
  status := request.connectorStatus
  errorCode := ""
  occurredAt := requiredTime request.timestamp receivedAt
  receivedAt := receivedAt

section Handlers

variable {Op : Type} {Reply : Op → Type}
  (repository : RepositoryCall → Program Op Reply (Except StoreError Unit)) (interval : Int)

/-- A boot is confirmed as accepted, also when the record was refused. -/
def handleBootNotification (station : Station) (bootedAt : Int) : Program Op Reply Answer := do
  let err ← repository (.upsertStation station)
  return ⟨.bootNotification (formatTime bootedAt) interval .accepted,err⟩

def handleHeartbeat (now : Int) : Program Op Reply Answer :=
  return ⟨.heartbeat (formatTime now),.ok ()⟩

def handleStatusNotification (status : ConnectorStatus) : Program Op Reply Answer := do
  let err ← repository (.updateConnectorStatus status)
  return ⟨.statusNotification,err⟩

structure Message where
  session : Session
  request : Request
  now : Int
deriving DecidableEq, Repr

def handle (m : Message) : Program Op Reply Answer :=
  match m.request with
  | .bootNotification16 request =>
    handleBootNotification repository interval (bootedStation16 m.session request m.now) m.now
  | .bootNotification201 request =>
    handleBootNotification repository interval (bootedStation2 m.session request m.now) m.now
  | .bootNotification21 request =>
    handleBootNotification repository interval (bootedStation2 m.session request m.now) m.now
  | .heartbeat16 => handleHeartbeat m.now
  | .heartbeat201 => handleHeartbeat m.now
  | .heartbeat21 => handleHeartbeat m.now
  | .statusNotification16 request =>
    handleStatusNotification repository (connectorStatus16 m.session request m.now)
  | .statusNotification201 request =>
    handleStatusNotification repository (connectorStatus2 m.session request m.now)
  | .statusNotification21 request =>
    handleStatusNotification repository (connectorStatus2 m.session request m.now)

/-! ## What a message is recorded as -/

namespace Message

/-- The call that the handler makes to the repository. -/
def call (m : Message) : Option RepositoryCall :=
  match m.request with
  | .bootNotification16 request => some (.upsertStation (bootedStation16 m.session request m.now))
  | .bootNotification201 request | .bootNotification21 request =>
    some (.upsertStation (bootedStation2 m.session request m.now))
  | .heartbeat16 | .heartbeat201 | .heartbeat21 => none
  | .statusNotification16 request =>
    some (.updateConnectorStatus (connectorStatus16 m.session request m.now))
  | .statusNotification201 request | .statusNotification21 request =>
    some (.updateConnectorStatus (connectorStatus2 m.session request m.now))

def confirmation (m : Message) : Confirmation :=
  match m.request with
  | .bootNotification16 _ | .bootNotification201 _ | .bootNotification21 _ =>
    .bootNotification (formatTime m.now) interval .accepted
  | .heartbeat16 | .heartbeat201 | .heartbeat21 => .heartbeat (formatTime m.now)
  | .statusNotification16 _ | .statusNotification201 _ | .statusNotification21 _ => .statusNotification

end Message

variable {repository interval} {m : Message}

theorem handle_silent (h : m.call = none) :
    handle repository interval m = .done ⟨m.confirmation interval,.ok ()⟩ := by
  unfold Message.call at h
  unfold handle Message.confirmation
  cases hr : m.request <;> simp only [hr,reduceCtorEq] at h <;> rfl

theorem handle_recorded {call : RepositoryCall} (h : m.call = some call) :
    handle repository interval m =
      repository call >>= fun err => .done ⟨m.confirmation interval,err⟩ := by
  unfold Message.call at h
  unfold handle Message.confirmation
  cases hr : m.request <;> simp only [hr,reduceCtorEq,Option.some.injEq] at h <;> subst h <;> rfl

end Handlers

/-! ## The rows that a call adds -/

/-- The row of `boot_events` for a call, when its values fit the columns. -/
def RepositoryCall.bootRow (sql : MySql) : RepositoryCall → Option Station
  | .upsertStation station => (sql.stationColumns station).toOption
  | .updateConnectorStatus _ => none

/-- The row of `status_events` for a call, when its values fit the columns. -/
def RepositoryCall.statusRow (sql : MySql) : RepositoryCall → Option ConnectorStatus
  | .upsertStation _ => none
  | .updateConnectorStatus status => (sql.statusColumns status).toOption

def Message.bootRow (sql : MySql) (m : Message) : Option Station :=
  (m.call).bind (RepositoryCall.bootRow sql)

def Message.statusRow (sql : MySql) (m : Message) : Option ConnectorStatus :=
  (m.call).bind (RepositoryCall.statusRow sql)

def FourTables.bootRows (t : FourTables) : List Station := t.stations.events.map Prod.snd

def FourTables.statusRows (t : FourTables) : List ConnectorStatus := t.connectors.events.map Prod.snd

section Rows

variable {sql : MySql} {call : RepositoryCall} {before after : FourTables}

theorem Appends.bootRows (h : Appends sql call before after) :
    after.bootRows = before.bootRows ++ (call.bootRow sql).toList := by
  unfold FourTables.bootRows
  cases call with
  | upsertStation station =>
    obtain ⟨id,row,hrow,hevents,_⟩ := h
    simp [hevents,RepositoryCall.bootRow,hrow,Except.toOption]
  | updateConnectorStatus status =>
    obtain ⟨id,row,_,_,hsame⟩ := h
    simp [hsame,RepositoryCall.bootRow]

theorem Appends.statusRows (h : Appends sql call before after) :
    after.statusRows = before.statusRows ++ (call.statusRow sql).toList := by
  unfold FourTables.statusRows
  cases call with
  | upsertStation station =>
    obtain ⟨id,row,_,_,hsame⟩ := h
    simp [hsame,RepositoryCall.statusRow]
  | updateConnectorStatus status =>
    obtain ⟨id,row,hrow,hevents,_⟩ := h
    simp [hevents,RepositoryCall.statusRow,hrow,Except.toOption]

theorem Appends.isSome (h : Appends sql call before after) :
    (call.bootRow sql).isSome ∨ (call.statusRow sql).isSome := by
  cases call with
  | upsertStation station =>
    obtain ⟨id,row,hrow,_⟩ := h
    exact .inl (by simp [RepositoryCall.bootRow,hrow,Except.toOption])
  | updateConnectorStatus status =>
    obtain ⟨id,row,hrow,_⟩ := h
    exact .inr (by simp [RepositoryCall.statusRow,hrow,Except.toOption])

end Rows

/-! ## The steps of a run as a log -/

section Log

variable {ι : Type}

/-- The steps, newest first, lead from the tables `t` to the tables `t'`. -/
def Leads (t : FourTables) : List (Turn ι) → FourTables → Prop
  | [], t' => t' = t
  | turn::earlier, t' => turn.after = t' ∧ Leads t earlier turn.before

open Classical in
noncomputable def changing (turns : List (Turn ι)) : List (Turn ι) :=
  turns.filter fun turn => turn.after ≠ turn.before

noncomputable def Watched.order (s : Watched ι) : List ι := ((changing s.turns).map Turn.session).reverse

variable {sql : MySql} {t t' : FourTables} {turns : List (Turn ι)}

/-- Where each change is the one of its session's call, the event tables are the rows of these calls. -/
theorem Leads.rows (h : Leads t turns t') (calls : ι → Option RepositoryCall)
    (happends : ∀ turn ∈ changing turns, ∃ call, calls turn.session = some call ∧
      Appends sql call turn.before turn.after) :
    t'.bootRows = t.bootRows ++ ((changing turns).map Turn.session).reverse.filterMap
        (fun i => (calls i).bind (RepositoryCall.bootRow sql)) ∧
      t'.statusRows = t.statusRows ++ ((changing turns).map Turn.session).reverse.filterMap
        (fun i => (calls i).bind (RepositoryCall.statusRow sql)) := by
  induction turns generalizing t' with
  | nil =>
    cases h
    simp [changing]
  | cons turn earlier ih =>
    obtain ⟨rfl,hearlier⟩ := h
    by_cases hchange : turn.after = turn.before
    · have hsame : changing (turn::earlier) = changing earlier := by simp [changing,hchange]
      rw [hsame] at happends ⊢
      rw [hchange]
      exact ih hearlier happends
    · have hcons : changing (turn::earlier) = turn::changing earlier := by simp [changing,hchange]
      rw [hcons] at happends ⊢
      obtain ⟨call,hcall,happend⟩ := happends turn List.mem_cons_self
      obtain ⟨hboot,hstatus⟩ := ih hearlier fun turn' h' => happends turn' (List.mem_cons_of_mem _ h')
      rw [happend.bootRows,happend.statusRows,hboot,hstatus,List.map_cons,List.reverse_cons,
        List.filterMap_append,List.filterMap_append,List.append_assoc,List.append_assoc]
      constructor
      · congr 2
        cases hrow : call.bootRow sql <;> simp [hcall,hrow]
      · congr 2
        cases hrow : call.statusRow sql <;> simp [hcall,hrow]

variable [DecidableEq ι] {s : Watched ι} {i : ι}

theorem changes_eq (s : Watched ι) (i : ι) :
    s.changes i = (changing s.turns).filter fun turn => turn.session = i := by
  rw [Watched.changes,changing,List.filter_filter]
  apply List.filter_congr
  intro turn _
  rw [Bool.eq_iff_iff]
  simp

theorem mem_order : i ∈ s.order ↔ s.changes i ≠ [] := by
  simp [Watched.order,changes_eq,List.filter_eq_nil_iff]

theorem nodup_order (h : ∀ i, (s.changes i).length ≤ 1) : s.order.Nodup := by
  rw [Watched.order,List.nodup_reverse,List.nodup_iff_count_le_one]
  intro i
  have hcount : ((changing s.turns).map Turn.session).count i = (s.changes i).length := by
    rw [changes_eq,List.count,List.countP_map,List.countP_eq_length_filter]
    congr 2
  rw [hcount]
  exact h i

theorem leads_watch {sql : MySql} (op : SqlOp) (outcome : SqlOutcome)
    (h : Leads t s.turns s.db.tables) :
    Leads t (watch sql i op outcome s).2.turns (watch sql i op outcome s).2.db.tables := ⟨rfl,h⟩

theorem changes_suffix_watch (sql : MySql) (op : SqlOp) (outcome : SqlOutcome) (s : Watched ι) (j : ι) :
    s.changes j <:+ (watch sql i op outcome s).2.changes j := by
  unfold Watched.changes watch
  rw [List.filter_cons]
  split
  · exact List.suffix_cons _ _
  · exact List.suffix_rfl

theorem changes_suffix_runWith {α : Type} (sql : MySql) (p : Program SqlOp SqlReply α)
    (outcomes : Nat → SqlOutcome) (s : Watched ι) (j : ι) :
    s.changes j <:+ (runWith (watch sql i) p outcomes s).2.changes j := by
  induction p generalizing s outcomes with
  | done a => exact List.suffix_rfl
  | call op next ih => exact (changes_suffix_watch sql op (outcomes 0) s j).trans (ih _ _ _)

end Log

/-! ## Handlers that take turns -/

variable {ι : Type} [DecidableEq ι]

structure Recorded (sql : MySql) (interval : Int) (m : Message) (i : ι)
    (answer : Answer) (s : Watched ι) : Prop where
  confirmation : answer.confirmation = m.confirmation interval
  silent : m.call = none → answer.err = .ok () ∧ s.changes i = []
  done : ∀ call, m.call = some call → Done sql call i answer.err s

/-- A session has changed nothing, or has made the one change of its message. -/
def ChangedOnce (sql : MySql) (m : Message) (changes : List (Turn ι)) : Prop :=
  changes = [] ∨ ∃ call turn, m.call = some call ∧ changes = [turn] ∧
    Appends sql call turn.before turn.after

section Messages

variable {sql : MySql} {interval : Int} {m : Message} {i : ι} {s s' : Watched ι}
  {answer : Answer}

omit [DecidableEq ι] in
theorem ChangedOnce.suffix {earlier later : List (Turn ι)} (h : ChangedOnce sql m later)
    (hs : earlier <:+ later) : ChangedOnce sql m earlier := by
  rcases h with rfl | ⟨call,turn,hcall,rfl,happends⟩
  · exact .inl (List.suffix_nil.mp hs)
  · rcases List.suffix_cons_iff.mp hs with rfl | hnil
    · exact .inr ⟨call,turn,hcall,rfl,happends⟩
    · exact .inl (List.suffix_nil.mp hnil)

omit [DecidableEq ι] in
theorem ChangedOnce.length_le {changes : List (Turn ι)} (h : ChangedOnce sql m changes) :
    changes.length ≤ 1 := by
  rcases h with rfl | ⟨_,_,_,rfl,_⟩ <;> simp

theorem Recorded.changes_iff (h : Recorded sql interval m i answer s) :
    s.changes i ≠ [] ↔ answer.err = .ok () ∧ (m.call).isSome := by
  cases hcall : m.call with
  | none => simp [(h.silent hcall).2]
  | some call =>
    obtain ⟨herror,hok⟩ := h.done call hcall
    cases herr : answer.err with
    | error err => simp [herror err herr]
    | ok u =>
      obtain ⟨turn,hturn,_⟩ := hok herr
      simp [hturn]

theorem Recorded.once (h : Recorded sql interval m i answer s) :
    ChangedOnce sql m (s.changes i) := by
  cases hcall : m.call with
  | none => exact .inl (h.silent hcall).2
  | some call =>
    obtain ⟨herror,hok⟩ := h.done call hcall
    cases herr : answer.err with
    | error err => exact .inl (herror err herr)
    | ok u =>
      obtain ⟨turn,hturn,happends⟩ := hok herr
      exact .inr ⟨call,turn,hcall,hturn,happends⟩

theorem Recorded.congr (h : Recorded sql interval m i answer s)
    (hchanges : s'.changes i = s.changes i) : Recorded sql interval m i answer s' where
  confirmation := h.confirmation
  silent hcall := by
    rw [hchanges]
    exact h.silent hcall
  done call hcall := by
    rw [Done,hchanges]
    exact h.done call hcall

abbrev SafeHandler (sql : MySql) (interval : Int) (m : Message) (i : ι)
    (program : Program SqlOp SqlReply Answer) (s : Watched ι) : Prop :=
  Safe (watch sql i) (Rely sql i) (fun s => s.db.Sound sql) (Recorded sql interval m i) program s

theorem safe_handle (valid : String → Bool) (hs : s.db.Sound sql) (hheld : s.held i = {}) :
    SafeHandler sql interval m i (handle (perform valid) interval m) s := by
  cases hcall : m.call with
  | none =>
    rw [handle_silent hcall]
    refine ⟨rfl,fun _ => ⟨rfl,congrArg Held.changes hheld⟩,?_⟩
    intro call hsome
    rw [hcall] at hsome
    cases hsome
  | some call =>
    rw [handle_recorded hcall]
    apply (safe_perform valid call hs hheld).bind
    intro err s' hdone
    refine ⟨rfl,?_,?_⟩
    · intro hnone
      rw [hcall] at hnone
      cases hnone
    · intro call' hcall'
      cases hcall.symm.trans hcall'
      exact hdone

/-- However a safe handler goes on, it has made its change once or not at all. -/
theorem changedOnce_of_safe {program : Program SqlOp SqlReply Answer}
    (h : SafeHandler sql interval m i program s) : ChangedOnce sql m (s.changes i) := by
  have hend : Recorded sql interval m i _ _ := h.runWith fun _ => .answered
  exact hend.once.suffix (changes_suffix_runWith sql program (fun _ => .answered) s i)

end Messages

def notifications (valid : String → Bool) (interval : Int)
    (messages : ι → Message) (db : Database ι) : Threads ι SqlOp SqlReply Answer (Watched ι) where
  program i := handle (perform valid) interval (messages i)
  state := ⟨db,[]⟩

section Run

variable {sql : MySql} {valid : String → Bool} {interval : Int}
  {messages : ι → Message} {db : Database ι}

theorem notifications_safe (h : db.Quiet sql) (turns : List (ι × SqlOutcome)) :
    Threads.AllSafe (watch sql) (Rely sql) (fun s => s.db.Sound sql)
      (fun i => Recorded sql interval (messages i) i)
      ((notifications valid interval messages db).run (watch sql) turns) := by
  have hstart : Threads.AllSafe (watch sql) (Rely sql) (fun s => s.db.Sound sql)
      (fun i => Recorded sql interval (messages i) i)
      (notifications valid interval messages db) := by
    refine ⟨h.sound,fun i => safe_handle valid h.sound ?_⟩
    simp [notifications,Watched.held,Watched.changes,h.stations i,h.connectors i]
  apply hstart.run
  · intro i answer s s' hrecorded hrely
    exact hrecorded.congr (congrArg Held.changes hrely.2)
  · intro i j hj op outcome s _ hsound
    exact ⟨hsound,watch_held_ne sql op outcome s hj⟩

theorem notifications_leads (turns : List (ι × SqlOutcome)) :
    Leads db.tables ((notifications valid interval messages db).run (watch sql) turns).state.turns
      ((notifications valid interval messages db).run (watch sql) turns).state.db.tables := by
  apply Threads.run_keeps (P := fun s : Watched ι => Leads db.tables s.turns s.db.tables)
  · intro i op outcome s hleads
    exact leads_watch op outcome hleads
  · rfl

end Run

/-- In any order of the handlers' steps, with any of their statements failing, the event tables grow by
the rows of some of the messages, each of them once. Of the messages that have been answered these are
the ones that carry a record and got no error, and the latest-state tables show the last of them. -/
theorem notifications_recorded (sql : MySql) (valid : String → Bool)
    (interval : Int) (messages : ι → Message) {db : Database ι} (h : db.Quiet sql)
    (turns : List (ι × SqlOutcome)) :
    let final := (notifications valid interval messages db).run (watch sql) turns
    let tables := final.state.db.tables
    tables.Projects sql ∧ ∃ order : List ι, order.Nodup ∧
      tables.bootRows = db.tables.bootRows ++
        order.filterMap (fun i => (messages i).bootRow sql) ∧
      tables.statusRows = db.tables.statusRows ++
        order.filterMap (fun i => (messages i).statusRow sql) ∧
      (∀ i ∈ order, ((messages i).bootRow sql).isSome ∨
        ((messages i).statusRow sql).isSome) ∧
      ∀ i answer, final.program i = .done answer →
        answer.confirmation = (messages i).confirmation interval ∧
        (i ∈ order ↔ answer.err = .ok () ∧ ((messages i).call).isSome) := by
  intro final tables
  have hsafe : Threads.AllSafe _ _ _ _ final := notifications_safe h turns
  have honce (i : ι) : ChangedOnce sql (messages i) (final.state.changes i) :=
    changedOnce_of_safe (hsafe.safe i)
  -- a change of the run is the one change of its session
  have happends : ∀ turn ∈ changing final.state.turns, ∃ call,
      (messages turn.session).call = some call ∧ Appends sql call turn.before turn.after := by
    intro turn hturn
    have hmem : turn ∈ final.state.changes turn.session := by
      rw [changes_eq]
      exact List.mem_filter.mpr ⟨hturn,by simp⟩
    rcases honce turn.session with hnil | ⟨call,turn',hcall,hone,happend⟩
    · rw [hnil] at hmem
      cases hmem
    · rw [hone,List.mem_singleton] at hmem
      exact ⟨call,hcall,hmem ▸ happend⟩
  have hrows := (notifications_leads turns).rows (fun i => (messages i).call) happends
  refine ⟨⟨hsafe.inv.stations.projects,hsafe.inv.connectors.projects⟩,final.state.order,
    nodup_order fun i => (honce i).length_le,hrows.1,hrows.2,?_,?_⟩
  · intro i hi
    rcases honce i with hnil | ⟨call,turn,hcall,_,happend⟩
    · exact absurd hnil (mem_order.mp hi)
    · simpa [Message.bootRow,Message.statusRow,hcall] using happend.isSome
  · intro i answer hdone
    have hrecorded := hsafe.safe i
    rw [hdone] at hrecorded
    exact ⟨hrecorded.confirmation,mem_order.trans hrecorded.changes_iff⟩

/-- A charge point and a charging station of one identity boot at once. The second meets the first one's
lock and gives up; a heartbeat needs no record. -/
def contendedMessages : Fin 3 → Message
  | 0 => ⟨⟨"station-1","ocpp1.6"⟩,.bootNotification16 ⟨"vendor","model",some "",some "box-7",none⟩,
    1767225600000000000⟩
  | 1 => ⟨⟨"station-1","ocpp2.0.1"⟩,.bootNotification201 ⟨⟨"vendor","model",none,none⟩,"PowerUp"⟩,
    1767225600500000000⟩
  | 2 => ⟨⟨"station-2","ocpp2.1"⟩,.heartbeat21,1767225601000000000⟩

theorem notifications_recorded_contended :
    let schedule : List (Fin 3 × SqlOutcome) := [(0,.answered),(1,.answered),(0,.answered),(1,.answered),
      (0,.answered),(1,.answered),(0,.answered),(0,.answered)]
    let final := (notifications (fun _ => true) 300 contendedMessages {}).run (watch plainSql) schedule
    final.program 2 = .done ⟨.heartbeat "2026-01-01T00:00:01Z",.ok ()⟩ ∧
    ∃ order : List (Fin 3), order.Nodup ∧
      final.state.db.tables.bootRows =
        order.filterMap (fun i => (contendedMessages i).bootRow plainSql) ∧
      0 ∈ order ∧ 1 ∉ order ∧ 2 ∉ order := by
  intro schedule final
  have htext : formatTime 1767225601000000000 = "2026-01-01T00:00:01Z" := by decide +kernel
  have hbeat : final.program 2 = .done ⟨.heartbeat "2026-01-01T00:00:01Z",.ok ()⟩ := by
    rw [← htext]
    rfl
  obtain ⟨_,order,hnodup,hboot,_,_,hanswers⟩ := notifications_recorded plainSql (fun _ => true)
    300 contendedMessages (Database.quiet_new plainSql) schedule
  refine ⟨hbeat,order,hnodup,hboot,?_,?_,?_⟩
  · exact (hanswers 0 ⟨.bootNotification (formatTime 1767225600000000000) 300 .accepted,.ok ()⟩ rfl).2.mpr
      ⟨rfl,rfl⟩
  · intro hmem
    have herr := ((hanswers 1 ⟨.bootNotification (formatTime 1767225600500000000) 300 .accepted,
      .error (.database "upsert station" .lockWait)⟩ rfl).2.mp hmem).1
    cases herr
  · intro hmem
    have hcall := ((hanswers 2 _ hbeat).2.mp hmem).2
    cases hcall

end CsmsPlatform.StationStore
