import CsmsPlatform.StationStore.MySql

/-!
# The latest-state tables project the event tables

Sessions run the two methods step by step in any order, and every call to the server may fail. A
session's own writes and the steps at which it changed the tables are what the others leave alone.
-/

namespace CsmsPlatform.StationStore

open Program Ledger

namespace MySql

/-- Equal on the shared columns, the identity as the server compares it. -/
def SameStation (sql : MySql) (row event : Station) : Prop :=
  sql.weight row.identity = sql.weight event.identity ∧ { row with identity := event.identity } = event

def SameStatus (sql : MySql) (row event : ConnectorStatus) : Prop :=
  sql.weight row.stationIdentity = sql.weight event.stationIdentity ∧
    { row with stationIdentity := event.stationIdentity } = event

end MySql

/-- Every row of `stations` and of `connector_status` is what the last event of its key says, and there
is a row just when there is an event. -/
structure FourTables.Projects (sql : MySql) (t : FourTables) : Prop where
  stations : Ledger.Projects sql.stationKey sql.SameStation t.stations
  connectors : Ledger.Projects sql.statusKey sql.SameStatus t.connectors

/-- One event goes into the log of the call. -/
def Appends (sql : MySql) (call : RepositoryCall) (before after : FourTables) : Prop :=
  match call with
  | .upsertStation station => ∃ id row, sql.stationColumns station = .ok row ∧
      after.stations.events = before.stations.events ++ [(id,row)] ∧ after.connectors = before.connectors
  | .updateConnectorStatus status => ∃ id row, sql.statusColumns status = .ok row ∧
      after.connectors.events = before.connectors.events ++ [(id,row)] ∧ after.stations = before.stations

structure Turn (ι : Type) where
  session : ι
  before : FourTables
  after : FourTables

structure Watched (ι : Type) where
  db : Database ι
  turns : List (Turn ι) := []

namespace Database

variable {ι : Type}

structure Sound (sql : MySql) (db : Database ι) : Prop where
  stations : db.stations.Sound sql.stationKey sql.SameStation
  connectors : db.connectors.Sound sql.statusKey sql.SameStatus

variable {sql : MySql} {db : Database ι} {i : ι}

/-- The row that an upsert leaves has the new values, and the old spelling of an equal identity. -/
theorem Sound.sameStation (h : db.Sound sql) (hidle : db.stations.pending i = {}) (row : Station) :
    sql.SameStation (stationUpdate (db.stations.view i (sql.stationKey row)) row) row := by
  refine ⟨?_,rfl⟩
  rw [Store.view_idle hidle]
  cases hold : db.stations.tables.rows (sql.stationKey row) with
  | none => rfl
  | some old =>
    obtain ⟨event,hkey,hsame,_⟩ := h.stations.projects.exists_agrees hold
    exact hsame.trans hkey

theorem Sound.sameStatus (h : db.Sound sql) (hidle : db.connectors.pending i = {})
    (row : ConnectorStatus) :
    sql.SameStatus (statusUpdate (db.connectors.view i (sql.statusKey row)) row) row := by
  refine ⟨?_,rfl⟩
  rw [Store.view_idle hidle]
  cases hold : db.connectors.tables.rows (sql.statusKey row) with
  | none => rfl
  | some old =>
    obtain ⟨event,hkey,hsame,_⟩ := h.connectors.projects.exists_agrees hold
    exact hsame.trans (congrArg ConnectorKey.stationIdentity hkey)

/-- No transaction is open, the rows are what the events say, and the counters are past the events. -/
structure Quiet (sql : MySql) (db : Database ι) : Prop where
  projects : db.tables.Projects sql
  bootEvents : ∀ e ∈ db.stations.tables.events, e.1 < db.stations.next
  statusEvents : ∀ e ∈ db.connectors.tables.events, e.1 < db.connectors.next
  stations : ∀ i, db.stations.pending i = {}
  connectors : ∀ i, db.connectors.pending i = {}

theorem quiet_new (sql : MySql) : ({} : Database ι).Quiet sql where
  projects := ⟨projects_new,projects_new⟩
  bootEvents := by simp
  statusEvents := by simp
  stations _ := rfl
  connectors _ := rfl

theorem Quiet.sound (h : db.Quiet sql) : db.Sound sql where
  stations := ⟨h.projects.stations,h.bootEvents,fun i => h.stations i ▸ .idle⟩
  connectors := ⟨h.projects.connectors,h.statusEvents,fun i => h.connectors i ▸ .idle⟩

end Database

variable {ι : Type} [DecidableEq ι]

def watch (sql : MySql) (i : ι) (op : SqlOp) (outcome : SqlOutcome) (s : Watched ι) :
    Except SqlError Unit × Watched ι :=
  ((serve sql i op outcome s.db).1,
    ⟨(serve sql i op outcome s.db).2,⟨i,s.db.tables,(serve sql i op outcome s.db).2.tables⟩::s.turns⟩)

open Classical in
noncomputable def Watched.changes (s : Watched ι) (i : ι) : List (Turn ι) :=
  s.turns.filter fun turn => turn.session = i ∧ turn.after ≠ turn.before

/-! ## One statement -/

namespace Database

variable {sql : MySql} {db db' : Database ι} {i j : ι} {station : Station} {status : ConnectorStatus}

theorem lockable_eq_ok {κ ρ ε : Type} {store : Store ι κ ρ ε} {k : κ} :
    lockable store i k = .ok () ↔ store.Free i k := by
  simp [lockable]

theorem execute_upsertStation (h : db.execute sql i (.upsertStation station) = .ok db') :
    ∃ row, sql.stationColumns station = .ok row ∧ db.stations.Free i (sql.stationKey row) ∧
      db' = { db with
        stations := db.stations.write i (sql.stationKey row)
          (stationUpdate (db.stations.view i (sql.stationKey row)) row) } := by
  obtain ⟨row,hrow,h⟩ := Program.except_bind_eq_ok.mp h
  obtain ⟨_,hlock,h⟩ := Program.except_bind_eq_ok.mp h
  cases h
  exact ⟨row,hrow,lockable_eq_ok.mp hlock,rfl⟩

theorem execute_insertBootEvent (h : db.execute sql i (.insertBootEvent station) = .ok db') :
    ∃ row, sql.stationColumns station = .ok row ∧
      db' = { db with stations := db.stations.append i row } := by
  obtain ⟨row,hrow,h⟩ := Program.except_bind_eq_ok.mp h
  obtain ⟨_,_,h⟩ := Program.except_bind_eq_ok.mp h
  cases h
  exact ⟨row,hrow,rfl⟩

theorem execute_upsertConnectorStatus (h : db.execute sql i (.upsertConnectorStatus status) = .ok db') :
    ∃ row, sql.statusColumns status = .ok row ∧ db.connectors.Free i (sql.statusKey row) ∧
      db' = { db with
        connectors := db.connectors.write i (sql.statusKey row)
          (statusUpdate (db.connectors.view i (sql.statusKey row)) row) } := by
  obtain ⟨row,hrow,h⟩ := Program.except_bind_eq_ok.mp h
  obtain ⟨_,hlock,h⟩ := Program.except_bind_eq_ok.mp h
  refine ⟨row,hrow,lockable_eq_ok.mp hlock,?_⟩
  by_cases hold : (db.connectors.view i (sql.statusKey row)).isNone
  · simp only [hold,if_true] at h
    obtain ⟨_,_,h⟩ := Program.except_bind_eq_ok.mp h
    cases h
    rfl
  · simp only [hold] at h
    cases h
    rfl

theorem execute_insertStatusEvent (h : db.execute sql i (.insertStatusEvent status) = .ok db') :
    ∃ row, sql.statusColumns status = .ok row ∧
      db' = { db with connectors := db.connectors.append i row } := by
  obtain ⟨row,hrow,h⟩ := Program.except_bind_eq_ok.mp h
  obtain ⟨_,_,h⟩ := Program.except_bind_eq_ok.mp h
  cases h
  exact ⟨row,hrow,rfl⟩

theorem execute_keeps {statement : Statement} (h : db.execute sql i statement = .ok db') :
    db'.tables = db.tables ∧ ∀ j, j ≠ i → db'.stations.pending j = db.stations.pending j ∧
      db'.connectors.pending j = db.connectors.pending j := by
  cases statement with
  | upsertStation station =>
    obtain ⟨row,_,_,rfl⟩ := execute_upsertStation h
    exact ⟨rfl,fun j hj => ⟨Store.write_pending_ne _ _ _ hj,rfl⟩⟩
  | insertBootEvent station =>
    obtain ⟨row,_,rfl⟩ := execute_insertBootEvent h
    exact ⟨rfl,fun j hj => ⟨Store.append_pending_ne _ _ hj,rfl⟩⟩
  | upsertConnectorStatus status =>
    obtain ⟨row,_,_,rfl⟩ := execute_upsertConnectorStatus h
    exact ⟨rfl,fun j hj => ⟨rfl,Store.write_pending_ne _ _ _ hj⟩⟩
  | insertStatusEvent status =>
    obtain ⟨row,_,rfl⟩ := execute_insertStatusEvent h
    exact ⟨rfl,fun j hj => ⟨rfl,Store.append_pending_ne _ _ hj⟩⟩

theorem Sound.rollback (h : db.Sound sql) (i : ι) : (db.rollback i).Sound sql :=
  ⟨h.stations.rollback i,h.connectors.rollback i⟩

end Database

/-! ## One call -/

section Calls

variable {sql : MySql} {i j : ι} {op : SqlOp} {outcome : SqlOutcome} {s : Watched ι}

theorem serve_keeps (sql : MySql) (op : SqlOp) (outcome : SqlOutcome) (db : Database ι) (hj : j ≠ i) :
    (serve sql i op outcome db).2.stations.pending j = db.stations.pending j ∧
      (serve sql i op outcome db).2.connectors.pending j = db.connectors.pending j := by
  have hrollback : (db.rollback i).stations.pending j = db.stations.pending j ∧
      (db.rollback i).connectors.pending j = db.connectors.pending j :=
    ⟨Store.rollback_pending_ne _ hj,Store.rollback_pending_ne _ hj⟩
  cases op with
  | begin => cases outcome <;> exact ⟨rfl,rfl⟩
  | exec statement =>
    cases outcome with
    | failed text => exact ⟨rfl,rfl⟩
    | answered =>
      cases hexec : db.execute sql i statement with
      | error err => simp [serve,hexec]
      | ok db' =>
        simp only [serve,hexec]
        exact (Database.execute_keeps hexec).2 j hj
  | commit => cases outcome <;> exact hrollback
  | rollback => exact hrollback

theorem serve_tables (sql : MySql) (i : ι) (outcome : SqlOutcome) (db : Database ι)
    (h : op = .commit → outcome ≠ .answered) : (serve sql i op outcome db).2.tables = db.tables := by
  cases op with
  | begin => cases outcome <;> rfl
  | exec statement =>
    cases outcome with
    | failed text => rfl
    | answered =>
      cases hexec : db.execute sql i statement with
      | error err => simp [serve,hexec]
      | ok db' =>
        simp only [serve,hexec]
        exact (Database.execute_keeps hexec).1
  | commit =>
    cases outcome with
    | answered => exact absurd rfl (h rfl)
    | failed text => rfl
  | rollback => rfl

theorem changes_watch (sql : MySql) (op : SqlOp) (outcome : SqlOutcome) (s : Watched ι)
    (h : j = i → (serve sql i op outcome s.db).2.tables = s.db.tables) :
    (watch sql i op outcome s).2.changes j = s.changes j := by
  by_cases hj : j = i
  · simp [Watched.changes,watch,h hj]
  · simp [Watched.changes,watch,Ne.symm hj]

structure Held (ι : Type) where
  boot : Pending String Station Station := {}
  status : Pending ConnectorKey ConnectorStatus ConnectorStatus := {}
  changes : List (Turn ι) := []

noncomputable def Watched.held (s : Watched ι) (i : ι) : Held ι :=
  ⟨s.db.stations.pending i,s.db.connectors.pending i,s.changes i⟩

/-- The other sessions keep the database sound and what is this one's own. -/
def Rely (sql : MySql) (i : ι) (s s' : Watched ι) : Prop := s'.db.Sound sql ∧ s'.held i = s.held i

theorem watch_held_ne (sql : MySql) (op : SqlOp) (outcome : SqlOutcome) (s : Watched ι) (hj : j ≠ i) :
    (watch sql i op outcome s).2.held j = s.held j := by
  obtain ⟨hstations,hconnectors⟩ := serve_keeps sql op outcome s.db hj
  have hchanges := changes_watch sql op outcome s fun heq => absurd heq hj
  simp only [Watched.held,hchanges]
  simp only [watch,hstations,hconnectors]

theorem changes_quiet (sql : MySql) (i : ι) (op : SqlOp) (outcome : SqlOutcome) (s : Watched ι)
    (h : op = .commit → outcome ≠ .answered) :
    (watch sql i op outcome s).2.changes i = s.changes i :=
  changes_watch sql op outcome s fun _ => serve_tables sql i outcome s.db h

theorem changes_commit (sql : MySql) (s : Watched ι) (h : (s.db.commit i).tables ≠ s.db.tables) :
    (watch sql i .commit .answered s).2.changes i =
      ⟨i,s.db.tables,(s.db.commit i).tables⟩::s.changes i := by
  simp [Watched.changes,watch,serve,h]

end Calls

/-! ## The two methods -/

/-- A call that failed changed no table, and one that succeeded appended one event. -/
def Done (sql : MySql) (call : RepositoryCall) (i : ι) (result : Except StoreError Unit)
    (s : Watched ι) : Prop :=
  (∀ err, result = .error err → s.changes i = []) ∧
    (result = .ok () → ∃ turn, s.changes i = [turn] ∧ Appends sql call turn.before turn.after)

abbrev SafeSession (sql : MySql) (i : ι) (Q : Except StoreError Unit → Watched ι → Prop)
    (program : Program SqlOp SqlReply (Except StoreError Unit)) (s : Watched ι) : Prop :=
  Safe (watch sql i) (Rely sql i) (fun s => s.db.Sound sql) Q program s

section Methods

variable {sql : MySql} {i : ι} {s : Watched ι} {held : Held ι} {call : RepositoryCall}
  {op : SqlOp} {action : String} {next : Program SqlOp SqlReply (Except StoreError Unit)}
  {Q : Except StoreError Unit → Watched ι → Prop}

theorem done_error (h : s.changes i = []) (err : StoreError) : Done sql call i (.error err) s := by
  refine ⟨fun _ _ => h,?_⟩
  intro hok
  cases hok

theorem safe_orReturn (hs : s.db.Sound sql) (hheld : s.held i = held)
    (hcall : ∀ s outcome, s.db.Sound sql → s.held i = held →
      (watch sql i op outcome s).2.db.Sound sql ∧
        ((∃ err, (watch sql i op outcome s).1 = .error err ∧
            Q (.error (.database action err)) (watch sql i op outcome s).2) ∨
          ((watch sql i op outcome s).1 = .ok () ∧
            SafeSession sql i Q next (watch sql i op outcome s).2))) :
    SafeSession sql i Q (orReturn op action next) s := by
  refine Safe.bind (safe_ask (P := fun s => s.db.Sound sql ∧ s.held i = held) ⟨hs,hheld⟩ ?_ ?_)
    (Q := fun reply s => (∃ err, reply = .error err ∧ Q (.error (.database action err)) s) ∨
      (reply = .ok () ∧ SafeSession sql i Q next s)) ?_
  · rintro s s' ⟨_,hheld⟩ ⟨hs',hsame⟩
    exact ⟨hs',hsame.trans hheld⟩
  · intro s outcome h
    exact hcall s outcome h.1 h.2
  · rintro reply s (⟨err,rfl,hQ⟩ | ⟨rfl,hnext⟩)
    · exact hQ
    · exact hnext

theorem safe_deferRollback {body : Program SqlOp SqlReply (Except StoreError Unit)}
    (h : SafeSession sql i (fun result s => s.db.Sound sql ∧ Done sql call i result s) body s) :
    SafeSession sql i (Done sql call i) (deferRollback body) s := by
  refine h.bind ?_
  rintro result s ⟨hs,hdone⟩
  refine Safe.bind (safe_ask (P := fun s => s.db.Sound sql ∧ Done sql call i result s) ⟨hs,hdone⟩ ?_ ?_)
    (Q := fun _ s => Done sql call i result s) fun _ _ hdone => hdone
  · rintro s s' ⟨_,hdone⟩ ⟨hs',hsame⟩
    have hchanges : s'.changes i = s.changes i := congrArg Held.changes hsame
    refine ⟨hs',?_⟩
    rw [Done,hchanges]
    exact hdone
  · rintro s outcome ⟨hs,hdone⟩
    refine ⟨hs.rollback i,?_⟩
    rw [Done,changes_quiet sql i .rollback outcome s (by simp)]
    exact hdone

variable {body : Program SqlOp SqlReply (Except StoreError Unit)}

theorem safe_begin (hs : s.db.Sound sql) (hheld : s.held i = {})
    (hbody : ∀ s, s.db.Sound sql → s.held i = {} →
      SafeSession sql i (fun result s => s.db.Sound sql ∧ Done sql call i result s) body s) :
    SafeSession sql i (Done sql call i) (orReturn .begin action (deferRollback body)) s := by
  refine safe_orReturn hs hheld fun s outcome hs hheld => ?_
  have hdb : (watch sql i .begin outcome s).2.db = s.db := by
    cases outcome <;> rfl
  have hchanges := changes_quiet sql i .begin outcome s (by simp)
  have hheld' : (watch sql i .begin outcome s).2.held i = {} := by
    rw [← hheld,Watched.held,Watched.held,hchanges,hdb]
  refine ⟨hdb ▸ hs,?_⟩
  cases outcome with
  | failed text => exact .inl ⟨_,rfl,done_error (congrArg Held.changes hheld') _⟩
  | answered => exact .inr ⟨rfl,safe_deferRollback (hbody _ (hdb ▸ hs) hheld')⟩

theorem safe_exec {statement : Statement} (hs : s.db.Sound sql) (hheld : s.held i = held)
    (hnone : held.changes = [])
    (hok : ∀ s s' : Watched ι, s.db.Sound sql → s.held i = held → s.db.execute sql i statement = .ok s'.db →
      s'.changes i = [] → s'.db.Sound sql ∧
        SafeSession sql i (fun result s => s.db.Sound sql ∧ Done sql call i result s) next s') :
    SafeSession sql i (fun result s => s.db.Sound sql ∧ Done sql call i result s)
      (orReturn (.exec statement) action next) s := by
  refine safe_orReturn hs hheld fun s outcome hs hheld => ?_
  have hchanges : (watch sql i (.exec statement) outcome s).2.changes i = [] := by
    rw [changes_quiet sql i (.exec statement) outcome s (by simp),← hnone,← hheld]
    rfl
  cases outcome with
  | failed text => exact ⟨hs,.inl ⟨_,rfl,hs,done_error hchanges _⟩⟩
  | answered =>
    cases hexec : s.db.execute sql i statement with
    | error err =>
      have hreply : (watch sql i (.exec statement) .answered s).1 = .error err := by
        simp [watch,serve,hexec]
      have hdb : (watch sql i (.exec statement) .answered s).2.db = s.db := by
        simp [watch,serve,hexec]
      exact ⟨hdb ▸ hs,.inl ⟨err,hreply,hdb ▸ hs,done_error hchanges _⟩⟩
    | ok db' =>
      have hreply : (watch sql i (.exec statement) .answered s).1 = .ok () := by
        simp [watch,serve,hexec]
      have hdb : (watch sql i (.exec statement) .answered s).2.db = db' := by
        simp [watch,serve,hexec]
      obtain ⟨hs',hnext⟩ := hok s _ hs hheld (hdb ▸ hexec) hchanges
      exact ⟨hs',.inr ⟨hreply,hnext⟩⟩

theorem safe_commit (hs : s.db.Sound sql) (hheld : s.held i = held) (hnone : held.changes = [])
    (hok : ∀ s : Watched ι, s.db.Sound sql → s.held i = held → (s.db.commit i).Sound sql ∧
      (s.db.commit i).tables ≠ s.db.tables ∧ Appends sql call s.db.tables (s.db.commit i).tables) :
    SafeSession sql i (fun result s => s.db.Sound sql ∧ Done sql call i result s)
      (orReturn .commit action (return .ok ())) s := by
  refine safe_orReturn hs hheld fun s outcome hs hheld => ?_
  have hbefore : s.changes i = [] := by
    rw [← hnone,← hheld]
    rfl
  cases outcome with
  | failed text =>
    have hchanges := changes_quiet sql i .commit (.failed text) s (by simp)
    exact ⟨hs.rollback i,.inl ⟨_,rfl,hs.rollback i,done_error (hchanges.trans hbefore) _⟩⟩
  | answered =>
    obtain ⟨hs',hdiffer,happends⟩ := hok s hs hheld
    have hchanges := changes_commit sql s hdiffer
    rw [hbefore] at hchanges
    refine ⟨hs',.inr ⟨rfl,hs',?_,fun _ => ⟨_,hchanges,happends⟩⟩⟩
    intro err herr
    cases herr

section Station

variable {valid : String → Bool} {station row r : Station} {id : Nat} {k : String} {action' : String}

theorem safe_commitStation (hrow : sql.stationColumns station = .ok row) (hs : s.db.Sound sql)
    (hheld : s.held i = ⟨⟨[(k,r)],[(id,row)]⟩,{},[]⟩) :
    SafeSession sql i
      (fun result s => s.db.Sound sql ∧ Done sql (.upsertStation station) i result s)
      (orReturn .commit action (return .ok ())) s := by
  refine safe_commit hs hheld rfl ?_
  intro s hs hheld
  have hboot : s.db.stations.pending i = ⟨[(k,r)],[(id,row)]⟩ := congrArg Held.boot hheld
  have hstatus : s.db.connectors.pending i = {} := congrArg Held.status hheld
  have hevents : (s.db.commit i).tables.stations.events =
      s.db.tables.stations.events ++ [(id,row)] := by
    simp [Database.tables,Database.commit,hboot,Tables.apply]
  refine ⟨⟨hs.stations.commit (.inr ⟨_,_,_,hboot⟩),hs.connectors.commit (.inl hstatus)⟩,?_,
    id,row,hrow,hevents,?_⟩
  · intro heq
    rw [heq] at hevents
    simp at hevents
  · simp [Database.tables,Database.commit,hstatus]

theorem safe_insertBootEvent (hrow : sql.stationColumns station = .ok row)
    (hsame : sql.SameStation r row) (hs : s.db.Sound sql)
    (hheld : s.held i = ⟨⟨[(sql.stationKey row,r)],[]⟩,{},[]⟩) :
    SafeSession sql i
      (fun result s => s.db.Sound sql ∧ Done sql (.upsertStation station) i result s)
      (orReturn (.exec (.insertBootEvent station)) action
        (orReturn .commit action' (return .ok ()))) s := by
  refine safe_exec hs hheld rfl ?_
  intro s s' hs hheld hexec hchanges
  obtain ⟨row',hrow',hs'⟩ := Database.execute_insertBootEvent hexec
  cases hrow.symm.trans hrow'
  have hwrote : s.db.stations.pending i = ⟨[(sql.stationKey row,r)],[]⟩ := congrArg Held.boot hheld
  have hstatus : s.db.connectors.pending i = {} := congrArg Held.status hheld
  have hsound : s'.db.Sound sql := by
    rw [hs']
    exact ⟨hs.stations.append hwrote hsame rfl,hs.connectors⟩
  have hheld' : s'.held i = ⟨⟨[(sql.stationKey row,r)],[(s.db.stations.next,row)]⟩,{},[]⟩ := by
    simp [Watched.held,hchanges,hs',Store.append,hwrote,hstatus]
  exact ⟨hsound,safe_commitStation hrow hsound hheld'⟩

theorem safe_upsertStation (hs : s.db.Sound sql) (hheld : s.held i = {}) :
    SafeSession sql i (Done sql (.upsertStation station) i) (upsertStation valid station) s := by
  unfold upsertStation
  cases validateStation valid station with
  | error err => exact done_error (congrArg Held.changes hheld) err
  | ok _ =>
    refine safe_begin hs hheld fun s hs hheld => safe_exec hs hheld rfl ?_
    intro s s' hs hheld hexec hchanges
    obtain ⟨row,hrow,hfree,hs'⟩ := Database.execute_upsertStation hexec
    have hidle : s.db.stations.pending i = {} := congrArg Held.boot hheld
    have hstatus : s.db.connectors.pending i = {} := congrArg Held.status hheld
    have hsame := hs.sameStation hidle row
    have hsound : s'.db.Sound sql := by
      rw [hs']
      exact ⟨hs.stations.write hfree hidle,hs.connectors⟩
    refine ⟨hsound,safe_insertBootEvent hrow hsame hsound ?_⟩
    simp [Watched.held,hchanges,hs',Store.write,hidle,hstatus]

end Station

section Connector

variable {valid : String → Bool} {status row r : ConnectorStatus} {id : Nat} {k : ConnectorKey} {action' : String}

theorem safe_commitStatus (hrow : sql.statusColumns status = .ok row) (hs : s.db.Sound sql)
    (hheld : s.held i = ⟨{},⟨[(k,r)],[(id,row)]⟩,[]⟩) :
    SafeSession sql i
      (fun result s => s.db.Sound sql ∧ Done sql (.updateConnectorStatus status) i result s)
      (orReturn .commit action (return .ok ())) s := by
  refine safe_commit hs hheld rfl ?_
  intro s hs hheld
  have hboot : s.db.stations.pending i = {} := congrArg Held.boot hheld
  have hstatus : s.db.connectors.pending i = ⟨[(k,r)],[(id,row)]⟩ := congrArg Held.status hheld
  have hevents : (s.db.commit i).tables.connectors.events =
      s.db.tables.connectors.events ++ [(id,row)] := by
    simp [Database.tables,Database.commit,hstatus,Tables.apply]
  refine ⟨⟨hs.stations.commit (.inl hboot),hs.connectors.commit (.inr ⟨_,_,_,hstatus⟩)⟩,?_,
    id,row,hrow,hevents,?_⟩
  · intro heq
    rw [heq] at hevents
    simp at hevents
  · simp [Database.tables,Database.commit,hboot]

theorem safe_insertStatusEvent (hrow : sql.statusColumns status = .ok row)
    (hsame : sql.SameStatus r row) (hs : s.db.Sound sql)
    (hheld : s.held i = ⟨{},⟨[(sql.statusKey row,r)],[]⟩,[]⟩) :
    SafeSession sql i
      (fun result s => s.db.Sound sql ∧ Done sql (.updateConnectorStatus status) i result s)
      (orReturn (.exec (.insertStatusEvent status)) action
        (orReturn .commit action' (return .ok ()))) s := by
  refine safe_exec hs hheld rfl ?_
  intro s s' hs hheld hexec hchanges
  obtain ⟨row',hrow',hs'⟩ := Database.execute_insertStatusEvent hexec
  cases hrow.symm.trans hrow'
  have hboot : s.db.stations.pending i = {} := congrArg Held.boot hheld
  have hwrote : s.db.connectors.pending i = ⟨[(sql.statusKey row,r)],[]⟩ := congrArg Held.status hheld
  have hsound : s'.db.Sound sql := by
    rw [hs']
    exact ⟨hs.stations,hs.connectors.append hwrote hsame rfl⟩
  have hheld' : s'.held i = ⟨{},⟨[(sql.statusKey row,r)],[(s.db.connectors.next,row)]⟩,[]⟩ := by
    simp [Watched.held,hchanges,hs',Store.append,hwrote,hboot]
  exact ⟨hsound,safe_commitStatus hrow hsound hheld'⟩

theorem safe_updateConnectorStatus (hs : s.db.Sound sql) (hheld : s.held i = {}) :
    SafeSession sql i (Done sql (.updateConnectorStatus status) i) (updateConnectorStatus valid status) s := by
  unfold updateConnectorStatus
  cases validateConnectorStatus valid status with
  | error err => exact done_error (congrArg Held.changes hheld) err
  | ok _ =>
    refine safe_begin hs hheld fun s hs hheld => safe_exec hs hheld rfl ?_
    intro s s' hs hheld hexec hchanges
    obtain ⟨row,hrow,hfree,hs'⟩ := Database.execute_upsertConnectorStatus hexec
    have hboot : s.db.stations.pending i = {} := congrArg Held.boot hheld
    have hidle : s.db.connectors.pending i = {} := congrArg Held.status hheld
    have hsame := hs.sameStatus hidle row
    have hsound : s'.db.Sound sql := by
      rw [hs']
      exact ⟨hs.stations,hs.connectors.write hfree hidle⟩
    refine ⟨hsound,safe_insertStatusEvent hrow hsame hsound ?_⟩
    simp [Watched.held,hchanges,hs',Store.write,hidle,hboot]

end Connector

theorem safe_perform (valid : String → Bool) (call : RepositoryCall) (hs : s.db.Sound sql)
    (hheld : s.held i = {}) : SafeSession sql i (Done sql call i) (perform valid call) s := by
  cases call with
  | upsertStation station => exact safe_upsertStation hs hheld
  | updateConnectorStatus status => exact safe_updateConnectorStatus hs hheld

end Methods

/-! ## Any order of steps -/

def sessions (valid : String → Bool) (calls : ι → RepositoryCall) (db : Database ι) :
    Threads ι SqlOp SqlReply (Except StoreError Unit) (Watched ι) where
  program i := perform valid (calls i)
  state := ⟨db,[]⟩

/-- However the sessions interleave and whichever of their statements fail, the current rows are what
the last events say, and each successful call has appended one event. -/
theorem stationTables_project (sql : MySql) (valid : String → Bool) (calls : ι → RepositoryCall)
    {db : Database ι} (h : db.Quiet sql) (turns : List (ι × SqlOutcome)) :
    let final := (sessions valid calls db).run (watch sql) turns
    final.state.db.tables.Projects sql ∧
    ∀ i,
      (∀ err, final.program i = .done (.error err) → final.state.changes i = []) ∧
      (final.program i = .done (.ok ()) →
        ∃ turn, final.state.changes i = [turn] ∧ Appends sql (calls i) turn.before turn.after) := by
  have hstart : Threads.AllSafe (watch sql) (Rely sql) (fun s => s.db.Sound sql)
      (fun i => Done sql (calls i) i) (sessions valid calls db) := by
    refine ⟨h.sound,fun i => safe_perform valid (calls i) h.sound ?_⟩
    simp [sessions,Watched.held,Watched.changes,h.stations i,h.connectors i]
  have hrun := hstart.run ?_ ?_ turns
  · refine ⟨⟨hrun.inv.stations.projects,hrun.inv.connectors.projects⟩,?_⟩
    intro i
    have hsafe := hrun.safe i
    constructor
    · intro err hp
      rw [hp] at hsafe
      exact hsafe.1 err rfl
    · intro hp
      rw [hp] at hsafe
      exact hsafe.2 rfl
  · rintro i result s s' hdone ⟨_,hheld⟩
    have hchanges : s'.changes i = s.changes i := congrArg Held.changes hheld
    rw [Done,hchanges]
    exact hdone
  · intro i j hj op outcome s _ hsound
    exact ⟨hsound,watch_held_ne sql op outcome s hj⟩

/-- Texts as they are, and an error for one that is too long. -/
def plainSql : MySql where
  weight := id
  varchar n text := if text.length ≤ n then .ok text else .error (.column "Data too long for column")
  int := .ok
  datetime := .ok

def bootedStation (vendor : String) : Station :=
  ⟨"station-1","ocpp2.0.1",vendor,"model","serial","1.0","PowerUp",1767225600000000000⟩

/-- Two sessions boot one station. The second meets the first one's lock and gives up. -/
def contendedBoot : List (Bool × SqlOutcome) :=
  [(false,.answered),(true,.answered),(false,.answered),(true,.answered),(false,.answered),
    (true,.answered),(false,.answered),(false,.answered)]

theorem stationTables_project_contended :
    let calls := fun second : Bool =>
      RepositoryCall.upsertStation (bootedStation (if second then "other" else "vendor"))
    let final := (sessions (fun _ => true) calls {}).run (watch plainSql) contendedBoot
    final.state.db.tables.Projects plainSql ∧
    (final.program true = .done (.error (.database "upsert station" .lockWait)) ∧
      final.state.changes true = []) ∧
    final.program false = .done (.ok ()) ∧ ∃ turn, final.state.changes false = [turn] ∧
      Appends plainSql (.upsertStation (bootedStation "vendor")) turn.before turn.after := by
  intro calls final
  obtain ⟨hprojects,hcalls⟩ := stationTables_project plainSql (fun _ => true) calls
    (Database.quiet_new plainSql) contendedBoot
  have hsecond : final.program true = .done (.error (.database "upsert station" .lockWait)) := rfl
  have hfirst : final.program false = .done (.ok ()) := rfl
  exact ⟨hprojects,⟨hsecond,(hcalls true).1 _ hsecond⟩,hfirst,(hcalls false).2 hfirst⟩

end CsmsPlatform.StationStore
