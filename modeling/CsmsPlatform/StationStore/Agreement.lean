import CsmsPlatform.StationStore.Projection

/-!
# The two station repositories side by side

The same calls are made one after the other to the maps and to a database that answers every call. A
value fits its column when the server stores it as it is, an instant to the microsecond.
-/

namespace CsmsPlatform.StationStore

open Ledger

/-- Equal but for less than a microsecond. -/
def Station.Alike (a b : Station) : Prop :=
  { a with lastBootAt := b.lastBootAt } = b ∧ |a.lastBootAt-b.lastBootAt| < 1000

def ConnectorStatus.Alike (a b : ConnectorStatus) : Prop :=
  { a with occurredAt := b.occurredAt, receivedAt := b.receivedAt } = b ∧
    |a.occurredAt-b.occurredAt| < 1000 ∧ |a.receivedAt-b.receivedAt| < 1000

def ConnectorStatus.key (status : ConnectorStatus) : ConnectorKey :=
  ⟨status.stationIdentity,status.evseID,status.connectorID⟩

namespace MySql

def Fits (sql : MySql) : RepositoryCall → Prop
  | .upsertStation station => ∃ row, sql.stationColumns station = .ok row ∧ station.Alike row
  | .updateConnectorStatus status => ∃ row, sql.statusColumns status = .ok row ∧ status.Alike row

def answering (sql : MySql) (op : SqlOp) (db : Database Unit) : SqlReply op × Database Unit :=
  serve sql () op .answered db

def perform (sql : MySql) (valid : String → Bool) (call : RepositoryCall) (db : Database Unit) :
    Except StoreError Unit × Database Unit :=
  Program.run sql.answering (StationStore.perform valid call) db

def performAll (sql : MySql) (valid : String → Bool) :
    List RepositoryCall → Database Unit → List (Except StoreError Unit) × Database Unit
  | [],db => ([],db)
  | call::rest,db =>
    ((sql.perform valid call db).1::(sql.performAll valid rest (sql.perform valid call db).2).1,
      (sql.performAll valid rest (sql.perform valid call db).2).2)

def station (sql : MySql) (db : Database Unit) (identity : String) : Option Station :=
  (db.stations.tables.rows (sql.weight identity)).filter fun row => row.identity = identity

def connector (sql : MySql) (db : Database Unit) (key : ConnectorKey) : Option ConnectorStatus :=
  (db.connectors.tables.rows { key with stationIdentity := sql.weight key.stationIdentity }).filter
    fun row => row.stationIdentity = key.stationIdentity

end MySql

namespace Memory

def performAll (valid : String → Bool) :
    List RepositoryCall → Memory → List (Except StoreError Unit) × Memory
  | [],m => ([],m)
  | call::rest,m =>
    ((m.perform valid none call).1::(performAll valid rest (m.perform valid none call).2).1,
      (performAll valid rest (m.perform valid none call).2).2)

/-- The station of a status is stored, and no other identity is stored that the server takes for the
one of a station. -/
def Ready (sql : MySql) (m : Memory) : RepositoryCall → Prop
  | .upsertStation station => ∀ identity, (m.stations identity).isSome →
      sql.weight identity = sql.weight station.identity → identity = station.identity
  | .updateConnectorStatus status => (m.stations status.stationIdentity).isSome

/-- Each call that is not refused as invalid finds the maps ready for it. -/
def ReadyRun (sql : MySql) (valid : String → Bool) : List RepositoryCall → Memory → Prop
  | [],_ => True
  | call::rest,m => (call.validate valid = .ok () → m.Ready sql call) ∧
      ReadyRun sql valid rest (m.perform valid none call).2

end Memory

/-! ## One call to the database -/

namespace MySql

variable {sql : MySql} {valid : String → Bool} {db : Database Unit}

def Idle (db : Database Unit) : Prop := db.stations.pending () = {} ∧ db.connectors.pending () = {}

theorem free_unit {κ ρ ε : Type} (store : Store Unit κ ρ ε) (k : κ) : store.Free () k := by
  unfold Store.Free
  cases store.lock k with
  | none => exact .inl rfl
  | some _ => exact .inr rfl

theorem serve_exec {statement : Statement} {db' : Database Unit}
    (h : db.execute sql () statement = .ok db') :
    serve sql () (.exec statement) .answered db = (.ok (),db') := by
  simp [serve,h]

theorem run_orReturn {op : SqlOp} {action : String} {db' : Database Unit}
    {next : Program SqlOp SqlReply (Except StoreError Unit)}
    (h : serve sql () op .answered db = (.ok (),db')) :
    Program.run sql.answering (orReturn op action next) db = Program.run sql.answering next db' := by
  simp [orReturn,answering,h]

theorem run_deferRollback (body : Program SqlOp SqlReply (Except StoreError Unit)) (db : Database Unit) :
    Program.run sql.answering (deferRollback body) db =
      ((Program.run sql.answering body db).1,(Program.run sql.answering body db).2.rollback ()) := by
  simp [deferRollback,answering,serve]

theorem lockable_unit {κ ρ ε : Type} (store : Store Unit κ ρ ε) (k : κ) :
    Database.lockable store () k = .ok () :=
  Database.lockable_eq_ok.mpr (free_unit store k)

theorem references_ok (db : Database Unit) {identity : String}
    (h : (db.stations.view () (sql.weight identity)).isSome) : db.references sql () identity = .ok () := by
  have hsome : (db.stations.view () (sql.weight identity)).isNone = false := by simpa using h
  simp only [Database.references,lockable_unit,hsome]
  rfl

def put {κ ρ : Type} [DecidableEq κ] (store : Store Unit κ ρ ρ) (k : κ) (r row : ρ) : Store Unit κ ρ ρ :=
  (store.write () k r).append () row

theorem put_commit {κ ρ : Type} [DecidableEq κ] {store : Store Unit κ ρ ρ}
    (hidle : store.pending () = {}) (k : κ) (r row : ρ) :
    ((put store k r row).commit ()).tables.rows = Function.update store.tables.rows k (some r) := by
  simp [put,Store.write,Store.append,hidle,Tables.apply]

section Station

variable {station row : Station}

theorem run_upsertStation (hidle : Idle db) (hrow : sql.stationColumns station = .ok row)
    (first second third : String) :
    Program.run sql.answering (orReturn (.exec (.upsertStation station)) first <|
      orReturn (.exec (.insertBootEvent station)) second <|
      orReturn .commit third <| return .ok ()) db =
        (.ok (),({ db with
          stations := put db.stations (sql.stationKey row)
            (Database.stationUpdate (db.stations.tables.rows (sql.stationKey row)) row) row } :
              Database Unit).commit ()) := by
  rw [← Store.view_idle hidle.1]
  have hupsert : db.execute sql () (.upsertStation station) = .ok { db with
      stations := db.stations.write () (sql.stationKey row)
        (Database.stationUpdate (db.stations.view () (sql.stationKey row)) row) } := by
    simp only [Database.execute,hrow,lockable_unit]
    rfl
  generalize Database.stationUpdate (db.stations.view () (sql.stationKey row)) row = r at hupsert ⊢
  have hinsert : ({ db with stations := db.stations.write () (sql.stationKey row) r } :
      Database Unit).execute sql () (.insertBootEvent station) =
        .ok { db with stations := put db.stations (sql.stationKey row) r row } := by
    have hparent : ((db.stations.write () (sql.stationKey row) r).view ()
        (sql.weight row.identity)).isSome := by
      simp [Store.view,Store.write,hidle.1,Tables.apply,stationKey]
    simp only [Database.execute,hrow]
    exact congrArg (· >>= fun _ => _) (references_ok { db with stations := _ } hparent)
  rw [run_orReturn (serve_exec hupsert),run_orReturn (serve_exec hinsert)]
  rfl

theorem perform_upsertStation (hidle : Idle db) (hvalid : validateStation valid station = .ok ())
    (hrow : sql.stationColumns station = .ok row) :
    ∃ db', sql.perform valid (.upsertStation station) db = (.ok (),db') ∧ Idle db' ∧
      db'.stations.tables.rows = Function.update db.stations.tables.rows (sql.stationKey row)
        (some (Database.stationUpdate (db.stations.tables.rows (sql.stationKey row)) row)) ∧
      db'.connectors.tables.rows = db.connectors.tables.rows := by
  have hbegin : serve sql () .begin .answered db = (.ok (),db) := rfl
  unfold perform StationStore.perform upsertStation
  simp only [hvalid]
  rw [run_orReturn hbegin,run_deferRollback,run_upsertStation hidle hrow]
  refine ⟨_,rfl,⟨Store.rollback_pending_self _,Store.rollback_pending_self _⟩,put_commit hidle.1 _ _ _,?_⟩
  simp [Database.rollback,Database.commit,hidle.2]

end Station

section Connector

variable {status row : ConnectorStatus}

theorem run_updateConnectorStatus (hidle : Idle db) (hrow : sql.statusColumns status = .ok row)
    (hparent : (db.stations.tables.rows (sql.weight row.stationIdentity)).isSome)
    (first second third : String) :
    Program.run sql.answering (orReturn (.exec (.upsertConnectorStatus status)) first <|
      orReturn (.exec (.insertStatusEvent status)) second <|
      orReturn .commit third <| return .ok ()) db =
        (.ok (),({ db with
          connectors := put db.connectors (sql.statusKey row)
            (Database.statusUpdate (db.connectors.tables.rows (sql.statusKey row)) row) row } :
              Database Unit).commit ()) := by
  have hparent' : (db.stations.view () (sql.weight row.stationIdentity)).isSome := by
    rw [Store.view_idle hidle.1]
    exact hparent
  rw [← Store.view_idle hidle.2]
  have hupsert : db.execute sql () (.upsertConnectorStatus status) = .ok { db with
      connectors := db.connectors.write () (sql.statusKey row)
        (Database.statusUpdate (db.connectors.view () (sql.statusKey row)) row) } := by
    have hreferences := references_ok db hparent'
    simp [Database.execute,hrow,lockable_unit,hreferences,Bind.bind,Except.bind,pure,Except.pure]
  generalize Database.statusUpdate (db.connectors.view () (sql.statusKey row)) row = r at hupsert ⊢
  have hinsert : ({ db with connectors := db.connectors.write () (sql.statusKey row) r } :
      Database Unit).execute sql () (.insertStatusEvent status) =
        .ok { db with connectors := put db.connectors (sql.statusKey row) r row } := by
    simp only [Database.execute,hrow]
    exact congrArg (· >>= fun _ => _) (references_ok { db with connectors := _ } hparent')
  rw [run_orReturn (serve_exec hupsert),run_orReturn (serve_exec hinsert)]
  rfl

theorem perform_updateConnectorStatus (hidle : Idle db)
    (hvalid : validateConnectorStatus valid status = .ok ()) (hrow : sql.statusColumns status = .ok row)
    (hparent : (db.stations.tables.rows (sql.weight row.stationIdentity)).isSome) :
    ∃ db', sql.perform valid (.updateConnectorStatus status) db = (.ok (),db') ∧ Idle db' ∧
      db'.stations.tables.rows = db.stations.tables.rows ∧
      db'.connectors.tables.rows = Function.update db.connectors.tables.rows (sql.statusKey row)
        (some (Database.statusUpdate (db.connectors.tables.rows (sql.statusKey row)) row)) := by
  have hbegin : serve sql () .begin .answered db = (.ok (),db) := rfl
  unfold perform StationStore.perform updateConnectorStatus
  simp only [hvalid]
  rw [run_orReturn hbegin,run_deferRollback,run_updateConnectorStatus hidle hrow hparent]
  refine ⟨_,rfl,⟨Store.rollback_pending_self _,Store.rollback_pending_self _⟩,?_,put_commit hidle.2 _ _ _⟩
  simp [Database.rollback,Database.commit,hidle.1]

end Connector

end MySql

/-! ## One call to both -/

/-- The maps hold what the tables hold. -/
structure Mirrors (sql : MySql) (m : Memory) (db : Database Unit) : Prop where
  idle : MySql.Idle db
  stations : ∀ identity, Option.Rel Station.Alike (m.stations identity) (sql.station db identity)
  connectors : ∀ key, Option.Rel ConnectorStatus.Alike (m.connectors key) (sql.connector db key)
  stationKeys : ∀ k row, db.stations.tables.rows k = some row → sql.stationKey row = k
  connectorKeys : ∀ k row, db.connectors.tables.rows k = some row → sql.statusKey row = k
  parents : ∀ key, (m.connectors key).isSome → (m.stations key.stationIdentity).isSome

theorem isSome_iff_of_rel {α β : Type} {r : α → β → Prop} {a : Option α} {b : Option β}
    (h : Option.Rel r a b) : a.isSome ↔ b.isSome := by
  cases h with
  | some _ => simp
  | none => simp

section Mirror

variable {sql : MySql} {valid : String → Bool} {m : Memory} {db : Database Unit}

theorem mirrors_new (sql : MySql) : Mirrors sql {} {} where
  idle := ⟨rfl,rfl⟩
  stations _ := .none
  connectors _ := .none
  stationKeys _ _ h := by cases h
  connectorKeys _ _ h := by cases h
  parents _ h := by cases h

theorem Mirrors.stored_row (h : Mirrors sql m db) {identity : String}
    (hstored : (m.stations identity).isSome) :
    ∃ row, db.stations.tables.rows (sql.weight identity) = some row ∧ row.identity = identity := by
  have hrow := (isSome_iff_of_rel (h.stations identity)).mp hstored
  obtain ⟨row,hrow⟩ := Option.isSome_iff_exists.mp hrow
  obtain ⟨hrows,hidentity⟩ := Option.filter_eq_some_iff.mp hrow
  exact ⟨row,hrows,by simpa using hidentity⟩

theorem Mirrors.row_stored (h : Mirrors sql m db) {k : String} {row : Station}
    (hrow : db.stations.tables.rows k = some row) : (m.stations row.identity).isSome := by
  rw [isSome_iff_of_rel (h.stations row.identity)]
  have hkey : sql.weight row.identity = k := h.stationKeys k row hrow
  simp [MySql.station,hkey,hrow]

theorem Mirrors.stored_inj (h : Mirrors sql m db) {a b : String} (ha : (m.stations a).isSome)
    (hb : (m.stations b).isSome) (hweight : sql.weight a = sql.weight b) : a = b := by
  obtain ⟨row,hrow,rfl⟩ := h.stored_row ha
  obtain ⟨row',hrow',rfl⟩ := h.stored_row hb
  rw [hweight,hrow'] at hrow
  cases hrow
  rfl

theorem Mirrors.connectorRow_stored (h : Mirrors sql m db) {k : ConnectorKey} {row : ConnectorStatus}
    (hrow : db.connectors.tables.rows k = some row) : (m.stations row.stationIdentity).isSome := by
  have hkey : sql.statusKey row = k := h.connectorKeys k row hrow
  have hfound : (sql.connector db row.key).isSome := by
    have hrow' : db.connectors.tables.rows ⟨sql.weight row.stationIdentity,row.evseID,row.connectorID⟩ =
        some row := by
      rw [← hrow,← hkey]
      rfl
    simp [MySql.connector,ConnectorStatus.key,hrow']
  exact h.parents row.key ((isSome_iff_of_rel (h.connectors row.key)).mpr hfound)

theorem Mirrors.upsertStation (h : Mirrors sql m db) {station row : Station}
    (hrow : sql.stationColumns station = .ok row) (halike : station.Alike row)
    (hready : m.Ready sql (.upsertStation station))
    (hvalid : validateStation valid station = .ok ()) :
    ∃ db', sql.perform valid (.upsertStation station) db = (.ok (),db') ∧
      Mirrors sql { m with stations := Function.update m.stations station.identity (some station) } db' := by
  obtain ⟨db',hperform,hidle,hrows,hothers⟩ := MySql.perform_upsertStation h.idle hvalid hrow
  have hidentity : row.identity = station.identity := by rw [← halike.1]
  have hkey : sql.stationKey row = sql.weight station.identity := congrArg sql.weight hidentity
  have hupdate : Database.stationUpdate (db.stations.tables.rows (sql.stationKey row)) row = row := by
    cases hold : db.stations.tables.rows (sql.stationKey row) with
    | none => rfl
    | some old =>
      have hsame : old.identity = station.identity :=
        hready old.identity (h.row_stored hold) ((h.stationKeys _ _ hold).trans hkey)
      simp [Database.stationUpdate,hsame,← hidentity]
  rw [hupdate,hkey] at hrows
  refine ⟨db',hperform,hidle,?_,?_,?_,?_,?_⟩
  · intro identity
    by_cases heq : identity = station.identity
    · subst heq
      have hfound : sql.station db' station.identity = some row := by
        simp [MySql.station,hrows,hidentity]
      rw [hfound]
      simpa using Option.Rel.some halike
    · have hsame : sql.station db' identity = sql.station db identity := by
        by_cases hweight : sql.weight identity = sql.weight station.identity
        · have hnone : sql.station db' identity = none := by
            simp [MySql.station,hrows,hweight,hidentity,Ne.symm heq]
          rw [hnone,eq_comm,← Option.not_isSome_iff_eq_none,← isSome_iff_of_rel (h.stations identity)]
          intro hstored
          exact heq (hready identity hstored hweight)
        · simp [MySql.station,hrows,hweight]
      simpa [heq,hsame] using h.stations identity
  · intro key
    simpa [MySql.connector,hothers] using h.connectors key
  · intro k r hr
    by_cases hk : k = sql.weight station.identity
    · subst hk
      cases (by simpa [hrows] using hr : row = r)
      exact hkey
    · exact h.stationKeys k r (by simpa [hrows,hk] using hr)
  · intro k r hr
    rw [hothers] at hr
    exact h.connectorKeys k r hr
  · intro key hstored
    by_cases heq : key.stationIdentity = station.identity
    · simp [heq]
    · simpa [heq] using h.parents key hstored

theorem Mirrors.updateConnectorStatus (h : Mirrors sql m db) {status row : ConnectorStatus}
    (hrow : sql.statusColumns status = .ok row) (halike : status.Alike row)
    (hready : m.Ready sql (.updateConnectorStatus status))
    (hvalid : validateConnectorStatus valid status = .ok ()) :
    ∃ db', sql.perform valid (.updateConnectorStatus status) db = (.ok (),db') ∧
      Mirrors sql { m with connectors := Function.update m.connectors status.key (some status) } db' := by
  have hidentity : row.stationIdentity = status.stationIdentity := by rw [← halike.1]
  have hkey : sql.statusKey row = { status.key with stationIdentity := sql.weight status.stationIdentity } := by
    rw [← halike.1]
    rfl
  have hparent : (db.stations.tables.rows (sql.weight row.stationIdentity)).isSome := by
    obtain ⟨parent,hparent,_⟩ := h.stored_row hready
    simp [hidentity,hparent]
  obtain ⟨db',hperform,hidle,hothers,hrows⟩ :=
    MySql.perform_updateConnectorStatus h.idle hvalid hrow hparent
  -- the update leaves the key columns, and those of the old row are spelled alike
  have hupdate : Database.statusUpdate (db.connectors.tables.rows (sql.statusKey row)) row = row := by
    cases hold : db.connectors.tables.rows (sql.statusKey row) with
    | none => rfl
    | some old =>
      have hweight : sql.weight old.stationIdentity = sql.weight status.stationIdentity := by
        have hsame := (h.connectorKeys _ _ hold).trans hkey
        exact congrArg ConnectorKey.stationIdentity hsame
      have hsame : old.stationIdentity = status.stationIdentity :=
        h.stored_inj (h.connectorRow_stored hold) hready hweight
      simp [Database.statusUpdate,hsame,← hidentity]
  rw [hupdate,hkey] at hrows
  refine ⟨db',hperform,hidle,?_,?_,?_,?_,?_⟩
  · intro identity
    simpa [MySql.station,hothers] using h.stations identity
  · intro key
    by_cases heq : key = status.key
    · subst heq
      have hfound : sql.connector db' status.key = some row := by
        simp [MySql.connector,hrows,hidentity,ConnectorStatus.key]
      rw [hfound]
      simpa using Option.Rel.some halike
    · have hsame : sql.connector db' key = sql.connector db key := by
        by_cases hweight : ({ key with stationIdentity := sql.weight key.stationIdentity } : ConnectorKey) =
            { status.key with stationIdentity := sql.weight status.stationIdentity }
        · obtain ⟨identity,evseID,connectorID⟩ := key
          obtain ⟨hweight',rfl,rfl⟩ := ConnectorKey.mk.inj hweight
          have hne : identity ≠ status.stationIdentity := by
            rintro rfl
            exact heq rfl
          have hnone : sql.connector db' ⟨identity,status.evseID,status.connectorID⟩ = none := by
            simp [MySql.connector,hrows,hweight',hidentity,Ne.symm hne,ConnectorStatus.key]
          rw [ConnectorStatus.key,hnone,eq_comm,← Option.not_isSome_iff_eq_none,
            ← isSome_iff_of_rel (h.connectors _)]
          intro hstored
          exact hne (h.stored_inj (h.parents _ hstored) hready hweight')
        · simp [MySql.connector,hrows,hweight]
      simpa [heq,hsame] using h.connectors key
  · intro k r hr
    rw [hothers] at hr
    exact h.stationKeys k r hr
  · intro k r hr
    by_cases hk : k = { status.key with stationIdentity := sql.weight status.stationIdentity }
    · subst hk
      cases (by simpa [hrows] using hr : row = r)
      exact hkey
    · exact h.connectorKeys k r (by simpa [hrows,hk] using hr)
  · intro key hstored
    by_cases heq : key = status.key
    · subst heq
      exact hready
    · exact h.parents key (by simpa [heq] using hstored)

theorem Mirrors.perform (h : Mirrors sql m db) {call : RepositoryCall}
    (hfits : call.validate valid = .ok () → sql.Fits call)
    (hready : call.validate valid = .ok () → m.Ready sql call) :
    (m.perform valid none call).1 = (sql.perform valid call db).1 ∧
      Mirrors sql (m.perform valid none call).2 (sql.perform valid call db).2 := by
  cases call with
  | upsertStation station =>
    cases hvalid : validateStation valid station with
    | error err =>
      simp only [Memory.perform,Memory.upsertStation,MySql.perform,StationStore.perform,
        StationStore.upsertStation,hvalid]
      exact ⟨rfl,h⟩
    | ok _ =>
      obtain ⟨row,hrow,halike⟩ := hfits hvalid
      obtain ⟨db',hperform,hmirrors⟩ := h.upsertStation hrow halike (hready hvalid) hvalid
      simp only [Memory.perform,Memory.upsertStation,hvalid,hperform]
      exact ⟨trivial,hmirrors⟩
  | updateConnectorStatus status =>
    cases hvalid : validateConnectorStatus valid status with
    | error err =>
      simp only [Memory.perform,Memory.updateConnectorStatus,MySql.perform,StationStore.perform,
        StationStore.updateConnectorStatus,hvalid]
      exact ⟨rfl,h⟩
    | ok _ =>
      obtain ⟨row,hrow,halike⟩ := hfits hvalid
      obtain ⟨db',hperform,hmirrors⟩ := h.updateConnectorStatus hrow halike (hready hvalid) hvalid
      simp only [Memory.perform,Memory.updateConnectorStatus,hvalid,hperform]
      exact ⟨trivial,hmirrors⟩

theorem Mirrors.performAll (h : Mirrors sql m db) {calls : List RepositoryCall}
    (hfits : ∀ call ∈ calls, call.validate valid = .ok () → sql.Fits call)
    (hready : Memory.ReadyRun sql valid calls m) :
    (Memory.performAll valid calls m).1 = (sql.performAll valid calls db).1 ∧
      Mirrors sql (Memory.performAll valid calls m).2 (sql.performAll valid calls db).2 := by
  induction calls generalizing m db with
  | nil => exact ⟨rfl,h⟩
  | cons call rest ih =>
    obtain ⟨hfirst,hrest⟩ := List.forall_mem_cons.mp hfits
    obtain ⟨hanswer,hmirrors⟩ := h.perform hfirst hready.1
    obtain ⟨hanswers,hfinal⟩ := ih hmirrors hrest hready.2
    rw [Memory.performAll,MySql.performAll,hanswer,hanswers]
    exact ⟨rfl,hfinal⟩

end Mirror

/-- A run of calls is answered alike by the maps and by the database, and leaves them with the same
rows up to the microseconds that a column keeps. -/
theorem repositories_agree (sql : MySql) (valid : String → Bool) {calls : List RepositoryCall}
    (hfits : ∀ call ∈ calls, call.validate valid = .ok () → sql.Fits call)
    (hready : Memory.ReadyRun sql valid calls {}) :
    let memory := Memory.performAll valid calls {}
    let mysql := sql.performAll valid calls {}
    memory.1 = mysql.1 ∧
    (∀ identity, Option.Rel Station.Alike (memory.2.stations identity) (sql.station mysql.2 identity)) ∧
    ∀ key, Option.Rel ConnectorStatus.Alike (memory.2.connectors key) (sql.connector mysql.2 key) := by
  obtain ⟨hanswers,hmirrors⟩ := (mirrors_new sql).performAll hfits hready
  exact ⟨hanswers,hmirrors.stations,hmirrors.connectors⟩

def availableConnector : ConnectorStatus :=
  ⟨"station-1","ocpp2.0.1",1,2,"Available","",1767225601000000000,1767225602000000000⟩

/-- A station boots, reports a connector, boots again, and an empty report is refused. -/
def bootThenStatus : List RepositoryCall :=
  [.upsertStation (bootedStation "vendor"),.updateConnectorStatus availableConnector,
    .upsertStation (bootedStation "other"),.updateConnectorStatus { availableConnector with status := "" }]

theorem repositories_agree_bootThenStatus :
    let memory := Memory.performAll (fun _ => true) bootThenStatus {}
    let mysql := plainSql.performAll (fun _ => true) bootThenStatus {}
    memory.1 = mysql.1 ∧
    (∀ identity, Option.Rel Station.Alike (memory.2.stations identity)
      (plainSql.station mysql.2 identity)) ∧
    ∀ key, Option.Rel ConnectorStatus.Alike (memory.2.connectors key)
      (plainSql.connector mysql.2 key) := by
  refine repositories_agree plainSql (fun _ => true) ?_ ?_
  · intro call hcall _
    simp only [bootThenStatus,List.mem_cons,List.not_mem_nil,or_false] at hcall
    rcases hcall with rfl | rfl | rfl | rfl
    · exact ⟨_,rfl,rfl,by decide⟩
    · exact ⟨_,rfl,rfl,by decide,by decide⟩
    · exact ⟨_,rfl,rfl,by decide⟩
    · exact ⟨_,rfl,rfl,by decide,by decide⟩
  · exact ⟨fun _ _ _ hweight => hweight,fun _ => rfl,fun _ _ _ hweight => hweight,fun _ => rfl,trivial⟩

/-- Letters of either case are equal to the server. -/
def caselessSql : MySql := { plainSql with weight := String.toLower }

theorem repositories_disagree :
    ((Memory.performAll (fun _ => true) [.updateConnectorStatus availableConnector] {}).1 = [.ok ()] ∧
      (plainSql.performAll (fun _ => true) [.updateConnectorStatus availableConnector] {}).1 =
        [.error (.database "upsert connector status" .foreignKey)]) ∧
    let calls : List RepositoryCall :=
      [.upsertStation { bootedStation "vendor" with identity := "Station-1" },
        .upsertStation (bootedStation "vendor")]
    (Memory.performAll (fun _ => true) calls {}).2.stations "station-1" = some (bootedStation "vendor") ∧
      caselessSql.station (caselessSql.performAll (fun _ => true) calls {}).2 "station-1" = none := by
  refine ⟨⟨rfl,rfl⟩,rfl,?_⟩
  have hcapital : caselessSql.weight "Station-1" = "station-1" := by decide +kernel
  have hsmall : caselessSql.weight "station-1" = "station-1" := by decide +kernel
  obtain ⟨first,hfirst,hidle,hrow,_⟩ := @MySql.perform_upsertStation caselessSql (fun _ => true) {}
    { bootedStation "vendor" with identity := "Station-1" } _ (mirrors_new caselessSql).idle rfl rfl
  obtain ⟨second,hsecond,_,hrows,_⟩ := @MySql.perform_upsertStation caselessSql (fun _ => true) first
    (bootedStation "vendor") _ hidle rfl rfl
  simp only [MySql.performAll,hfirst,hsecond]
  simp [MySql.station,hrows,hrow,MySql.stationKey,Database.stationUpdate,bootedStation,hcapital,hsmall]

end CsmsPlatform.StationStore
