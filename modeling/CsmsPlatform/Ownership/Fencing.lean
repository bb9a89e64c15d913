import CsmsPlatform.Ownership.Stale

/-!
# Which connection a command reaches

`handleCommand` reads the runtime's ownership map first and the OCPP server's table of sessions after
that. The table is the library's: a session is registered and unregistered at any moment, and a lookup
gives the one that is registered then. Any number of handlers run beside the callbacks.
-/

namespace CsmsPlatform

open Redis FencedLease

/-- The answer of `handleCommand` before it looks for a session, if it has one. -/
def refuseCommand (ctxErr : Option String) (isOwner : Bool) : Option Result :=
  match ctxErr with
  | some err => some (failed "Expired" err)
  | none =>
    if isOwner = false then some (failed "NotOwner" "station ownership changed") else none

/-- The rest of `handleCommand`, with the session it found. -/
def dispatchCommand (texts : ErrorTexts) (session : Option Version) (command : Command) : Decision :=
  match session with
  | none => .respond (failed "StationNotConnected" "station is not connected to this runtime")
  | some version =>
    if command.action ≠ resetAction then
      .respond (failed "UnsupportedAction"
        ("unsupported command action " ++ texts.quoted command.action))
    else
      match decodeReset command.payload with
      | none => .respond (failed "InvalidPayload" (texts.invalidJSON command.payload))
      | some request => .callReset version request

/-- With nothing between its two reads, `handleCommand` is the two parts in a row. -/
theorem handleCommand_eq (texts : ErrorTexts) (ctxErr : Option String) (view : RuntimeView)
    (command : Command) : handleCommand texts ctxErr view command =
      match refuseCommand ctxErr (view.isOwner command) with
      | some result => .respond result
      | none => dispatchCommand texts (view.session command.stationIdentity) command := by
  unfold handleCommand refuseCommand
  cases ctxErr with
  | some err => rfl
  | none =>
    cases view.isOwner command with
    | false => rfl
    | true =>
      simp only [dispatchCommand]
      cases view.session command.stationIdentity <;> rfl

/-- A command whose ownership check has passed. -/
structure Checked (Runtime : Type) where
  runtime : Runtime
  command : Command

/-- A call of `callReset`, with the session that was looked up for it. -/
structure ResetCall (Runtime Session : Type) extends Checked Runtime where
  session : Session
  version : Version
  request : ResetCommand

structure Connections (Runtime Session Thread : Type) where
  world : World Runtime Session
  registered : Runtime → String → Option Session
  handler : Thread → Option (Checked Runtime)
  calls : List (ResetCall Runtime Session)

namespace Connections

variable {Runtime Session Thread : Type}

def start (ks : Keyspace) (now : Int) : Connections Runtime Session Thread :=
  ⟨.start ks now,fun _ _ => none,fun _ => none,[]⟩

inductive Action (Runtime Session Thread : Type) where
  | callback (action : World.Action Session)
  | register (session : Session)
  | unregister (session : Session)
  | check (thread : Thread) (runtime : Runtime) (ctxErr : Option String) (command : Command)
  | lookup (thread : Thread)

def Action.thread : Action Runtime Session Thread → Option Thread
  | .check t _ _ _ => some t
  | .lookup t => some t
  | _ => none

def Action.inWorld : Action Runtime Session Thread → Option (World.Action Session)
  | .callback a => some a
  | _ => none

variable [DecidableEq Thread] (fleet : Fleet Runtime Session) (version : Session → Version)
  (texts : ErrorTexts)

def setHandler (c : Connections Runtime Session Thread) (t : Thread) (h : Option (Checked Runtime)) :
    Connections Runtime Session Thread :=
  { c with handler := fun t' => if t' = t then h else c.handler t' }

def check (c : Connections Runtime Session Thread) (t : Thread) (r : Runtime)
    (ctxErr : Option String) (command : Command) : Connections Runtime Session Thread :=
  let view := c.world.view fleet r fun s => (c.registered r s).map version
  match c.handler t,refuseCommand ctxErr (view.isOwner command) with
  | none,none => c.setHandler t (some ⟨r,command⟩)
  | _,_ => c

def lookup (c : Connections Runtime Session Thread) (t : Thread) : Connections Runtime Session Thread :=
  match c.handler t with
  | none => c
  | some checked =>
    let c' := c.setHandler t none
    -- the generation is not looked at again
    match c.registered checked.runtime checked.command.stationIdentity with
    | none => c'
    | some session =>
      match dispatchCommand texts (some (version session)) checked.command with
      | .respond _ => c'
      | .callReset v request => { c' with calls := ⟨checked,session,v,request⟩::c.calls }

variable [DecidableEq Session] [DecidableEq Runtime]

def setRegistered (c : Connections Runtime Session Thread) (x : Session) (slot : Option Session) :
    Connections Runtime Session Thread :=
  { c with registered := fun r s =>
      if r = fleet.runtime x ∧ s = fleet.identity x then slot else c.registered r s }

def act (c : Connections Runtime Session Thread) :
    Action Runtime Session Thread → Connections Runtime Session Thread
  | .callback a => { c with world := c.world.act fleet a }
  | .register x => c.setRegistered fleet x (some x)
  | .unregister x =>
    if c.registered (fleet.runtime x) (fleet.identity x) = some x then c.setRegistered fleet x none else c
  | .check t r ctxErr command => c.check fleet version t r ctxErr command
  | .lookup t => c.lookup version texts t

def run (c : Connections Runtime Session Thread) (actions : List (Action Runtime Session Thread)) :
    Connections Runtime Session Thread :=
  actions.foldl (act fleet version texts) c

/-- The session's own `onConnect` claimed the generation the command names. -/
def FencedTo (w : World Runtime Session) (command : Command) (x : Session) : Prop :=
  ∃ lease, w.claimed x = some lease ∧ lease.stationIdentity = command.stationIdentity ∧
    lease.generation = command.ownerGeneration

structure Change (fleet : Fleet Runtime Session) (a : Action Runtime Session Thread)
    (c c' : Connections Runtime Session Thread) : Prop where
  world : c'.world = a.inWorld.elim c.world (c.world.act fleet)
  registered : ∀ r s, c'.registered r s = c.registered r s ∨ c'.registered r s = none ∨
    ∃ x, a = .register x ∧ fleet.runtime x = r ∧ fleet.identity x = s ∧ c'.registered r s = some x
  handler : ∀ t, a.thread ≠ some t → c'.handler t = c.handler t

theorem act_change (c : Connections Runtime Session Thread) (a : Action Runtime Session Thread) :
    Change fleet a c (c.act fleet version texts a) := by
  have hsame {c' : Connections Runtime Session Thread} (hw : c'.world = c.world)
      (hr : c'.registered = c.registered) (hno : a.inWorld = none)
      (hh : ∀ t, a.thread ≠ some t → c'.handler t = c.handler t) : Change fleet a c c' :=
    ⟨by rw [hno,hw]; rfl,fun r s => .inl (by rw [hr]),hh⟩
  have hother {t t' : Thread} (checked : Option (Checked Runtime)) (ht : some t ≠ some t') :
      (c.setHandler t checked).handler t' = c.handler t' := by
    have hne : t' ≠ t := fun he => ht (congrArg some he.symm)
    simp [setHandler,hne]
  cases a with
  | callback a => exact ⟨rfl,fun _ _ => .inl rfl,fun _ _ => rfl⟩
  | register x =>
    refine ⟨rfl,fun r s => ?_,fun _ _ => rfl⟩
    by_cases hx : r = fleet.runtime x ∧ s = fleet.identity x
    · exact .inr (.inr ⟨x,rfl,hx.1.symm,hx.2.symm,by simp [act,setRegistered,hx]⟩)
    · exact .inl (by simp [act,setRegistered,hx])
  | unregister x =>
    simp only [act]
    split
    · refine ⟨rfl,fun r s => ?_,fun _ _ => rfl⟩
      by_cases hx : r = fleet.runtime x ∧ s = fleet.identity x
      · exact .inr (.inl (by simp [setRegistered,hx]))
      · exact .inl (by simp [setRegistered,hx])
    · exact hsame rfl rfl rfl fun _ _ => rfl
  | check t r ctxErr command =>
    simp only [act,check]
    split
    · exact hsame rfl rfl rfl fun _ ht => hother _ ht
    · exact hsame rfl rfl rfl fun _ _ => rfl
  | lookup t =>
    simp only [act,lookup]
    split
    · exact hsame rfl rfl rfl fun _ _ => rfl
    · split
      · exact hsame rfl rfl rfl fun _ ht => hother _ ht
      · split
        · exact hsame rfl rfl rfl fun _ ht => hother _ ht
        · exact hsame rfl rfl rfl fun _ ht => hother _ ht

variable {fleet version texts} {c : Connections Runtime Session Thread}

theorem run_world (actions : List (Action Runtime Session Thread)) :
    (c.run fleet version texts actions).world = c.world.run fleet (actions.filterMap Action.inWorld) := by
  induction actions generalizing c with
  | nil => rfl
  | cons a rest ih =>
    change (Connections.run fleet version texts (c.act fleet version texts a) rest).world = _
    rw [ih,(act_change fleet version texts c a).world]
    cases ha : a.inWorld with
    | none => rw [List.filterMap_cons_none ha]; rfl
    | some action => rw [List.filterMap_cons_some ha]; rfl

theorem run_handler {t : Thread} {actions : List (Action Runtime Session Thread)}
    (h : ∀ a ∈ actions, a.thread ≠ some t) :
    (c.run fleet version texts actions).handler t = c.handler t := by
  induction actions generalizing c with
  | nil => rfl
  | cons a rest ih =>
    obtain ⟨hfirst,hrest⟩ := List.forall_mem_cons.mp h
    exact (ih hrest).trans ((act_change fleet version texts c a).handler t hfirst)

theorem run_registered {r : Runtime} {s : String} {x : Session}
    {actions : List (Action Runtime Session Thread)}
    (h : ∀ y, .register y ∈ actions → fleet.runtime y = r → fleet.identity y = s → y = x)
    (hx : c.registered r s = some x ∨ c.registered r s = none) :
    (c.run fleet version texts actions).registered r s = some x ∨
      (c.run fleet version texts actions).registered r s = none := by
  induction actions generalizing c with
  | nil => exact hx
  | cons a rest ih =>
    refine ih (fun y hy => h y (List.mem_cons_of_mem _ hy)) ?_
    rcases (act_change fleet version texts c a).registered r s with
      hsame | hnone | ⟨y,ha,hr,hs,hy⟩
    · rw [hsame]
      exact hx
    · exact .inr hnone
    · rw [hy,h y (by rw [ha]; exact List.mem_cons_self) hr hs]
      exact .inl rfl

omit [DecidableEq Thread] [DecidableEq Session] [DecidableEq Runtime] in
/-- The entry that a passing check found is that of the session that claimed the generation. -/
theorem fencedTo_of_isOwner (h : World.Inv fleet c.world) {r : Runtime}
    {session : String → Option Version} {command : Command}
    (howner : (c.world.view fleet r session).isOwner command = true) :
    ∃ x, c.world.writes r command.stationIdentity = some (.stored x) ∧ FencedTo c.world command x := by
  simp only [RuntimeView.isOwner,World.view,Bool.decide_and,Bool.decide_eq_true,Bool.and_eq_true,
    decide_eq_true_eq] at howner
  obtain ⟨x,lease,hx,hl,hg⟩ := h.owns_iff.mp howner.2
  refine ⟨x,(h.written _ _ _).mp hx,lease,hl,?_,hg⟩
  rw [(h.own x lease hl).1]
  exact (h.placed r _ x hx).2.1

theorem refuseCommand_eq_none {ctxErr : Option String} {isOwner : Bool}
    (h : refuseCommand ctxErr isOwner = none) : isOwner = true := by
  unfold refuseCommand at h
  cases ctxErr with
  | some err => cases h
  | none =>
    cases isOwner with
    | false => cases h
    | true => rfl

omit [DecidableEq Session] [DecidableEq Runtime] in
theorem check_handler {t : Thread} {r : Runtime} {ctxErr : Option String} {command : Command}
    (hidle : c.handler t = none) :
    (c.check fleet version t r ctxErr command).handler t = none ∨
      (c.check fleet version t r ctxErr command).handler t = some ⟨r,command⟩ ∧
        (c.world.view fleet r fun s => (c.registered r s).map version).isOwner command = true := by
  unfold check
  dsimp only
  rw [hidle]
  cases hrefuse : refuseCommand ctxErr
      ((c.world.view fleet r fun s => (c.registered r s).map version).isOwner command) with
  | none => exact .inr ⟨by simp [setHandler],refuseCommand_eq_none hrefuse⟩
  | some result => exact .inl hidle

omit [DecidableEq Session] [DecidableEq Runtime] in
theorem lookup_calls {t : Thread} {call : ResetCall Runtime Session}
    (h : (c.lookup version texts t).calls = call::c.calls) :
    c.handler t = some call.toChecked ∧
      c.registered call.runtime call.command.stationIdentity = some call.session := by
  unfold lookup at h
  split at h
  · exact absurd h (by simp)
  · next checked hchecked =>
    dsimp only at h
    split at h
    · exact absurd h (by simp [setHandler])
    · next session hsession =>
      split at h
      · exact absurd h (by simp [setHandler])
      · cases List.cons.inj h |>.1
        exact ⟨hchecked,hsession⟩

omit [DecidableEq Session] [DecidableEq Runtime] in
theorem check_world (t : Thread) (r : Runtime) (ctxErr : Option String) (command : Command) :
    (c.check fleet version t r ctxErr command).world = c.world := by
  simp only [check]
  split
  · rfl
  · rfl

omit [DecidableEq Session] [DecidableEq Runtime] in
theorem check_registered (t : Thread) (r : Runtime) (ctxErr : Option String) (command : Command) :
    (c.check fleet version t r ctxErr command).registered = c.registered := by
  simp only [check]
  split
  · rfl
  · rfl

omit [DecidableEq Session] [DecidableEq Runtime] in
theorem lookup_world (t : Thread) : (c.lookup version texts t).world = c.world := by
  simp only [lookup]
  repeat' split
  all_goals rfl

theorem inv_run {ks : Keyspace} {now : Int} (h : fleet.registry.Unused ks now)
    {actions : List (Action Runtime Session Thread)}
    (hfew : ((start ks now).run fleet version texts actions).world.service.grants < 2^53) :
    World.Inv fleet ((start ks now).run fleet version texts actions).world := by
  rw [run_world] at hfew ⊢
  exact (World.inv_start h).run _ hfew

/-- A call is for the command that was checked, and goes to the session that the lookup found. -/
theorem lookup_of_check {t : Thread} {r : Runtime} {ctxErr : Option String} {command : Command}
    {between : List (Action Runtime Session Thread)} {call : ResetCall Runtime Session}
    (hidle : c.handler t = none) (hothers : ∀ a ∈ between, a.thread ≠ some t)
    (hcall : (((c.check fleet version t r ctxErr command).run fleet version texts between).lookup
        version texts t).calls =
      call::((c.check fleet version t r ctxErr command).run fleet version texts between).calls) :
    call.command = command ∧
      (c.world.view fleet r fun s => (c.registered r s).map version).isOwner command = true ∧
      ((c.check fleet version t r ctxErr command).run fleet version texts between).registered r
        command.stationIdentity = some call.session := by
  obtain ⟨hhandler,hregistered⟩ := lookup_calls hcall
  rw [run_handler hothers] at hhandler
  rcases check_handler hidle with hnone | ⟨hpassed,howner⟩
  · cases hnone.symm.trans hhandler
  · have hchecked : call.toChecked = ⟨r,command⟩ := Option.some.inj (hhandler.symm.trans hpassed)
    have hruntime : call.runtime = r := congrArg Checked.runtime hchecked
    have hcommand : call.command = command := congrArg Checked.command hchecked
    rw [hruntime,hcommand] at hregistered
    exact ⟨hcommand,howner,hregistered⟩

end Connections

/-- Let a handler make its ownership check and its lookup of the session with anything in between that
other handlers, callbacks and connections do. If at the check the session table holds the session whose
`onConnect` last wrote the runtime's map at the station, and no other session of the station registers
there before the lookup, then a call of `callReset` goes to the session whose own `onConnect` claimed the
command's generation. -/
theorem handleCommand_fencedSession {Runtime Session Thread : Type} [DecidableEq Thread]
    [DecidableEq Session] [DecidableEq Runtime] (fleet : Fleet Runtime Session)
    (version : Session → Version) (texts : ErrorTexts) (ks : Keyspace) (now : Int)
    (h : fleet.registry.Unused ks now) (before between : List (Connections.Action Runtime Session Thread))
    (t : Thread) (r : Runtime) (ctxErr : Option String) (command : Command) :
    let atCheck := (Connections.start ks now).run fleet version texts before
    let atLookup := (atCheck.check fleet version t r ctxErr command).run fleet version texts between
    let after := atLookup.lookup version texts t
    atLookup.world.service.grants < 2^53 → atCheck.handler t = none →
    (∀ a ∈ between, a.thread ≠ some t) →
    (∀ x, atCheck.world.writes r command.stationIdentity = some (.stored x) →
      atCheck.registered r command.stationIdentity = some x ∧
      ∀ y, .register y ∈ between → fleet.runtime y = r → fleet.identity y = command.stationIdentity → y = x) →
    ∀ call, after.calls = call::atLookup.calls →
      call.command = command ∧ Connections.FencedTo after.world command call.session := by
  intro atCheck atLookup after hfew hidle hothers hstays call hcall
  have hworld : atLookup.world =
      atCheck.world.run fleet (between.filterMap Connections.Action.inWorld) := by
    rw [Connections.run_world,Connections.check_world]
  rw [hworld] at hfew
  have hinv : World.Inv fleet atCheck.world :=
    Connections.inv_run h ((World.grants_le_run fleet _ _).trans_lt hfew)
  obtain ⟨hcommand,howner,hregistered⟩ := Connections.lookup_of_check hidle hothers hcall
  obtain ⟨x,hstored,lease,hl,hs,hg⟩ := Connections.fencedTo_of_isOwner hinv howner
  obtain ⟨htable,hquiet⟩ := hstays x hstored
  have hsession : call.session = x := by
    have hfirst : (atCheck.check fleet version t r ctxErr command).registered r
        command.stationIdentity = some x := by
      rw [Connections.check_registered]
      exact htable
    rcases Connections.run_registered hquiet (.inl hfirst) with hx | hx
    · exact Option.some.inj (hregistered.symm.trans hx)
    · cases hregistered.symm.trans hx
  refine ⟨hcommand,lease,?_,hs,hg⟩
  rw [Connections.lookup_world,hworld,hsession]
  exact hinv.run_claimed hl _ hfew

def twoConnections : Fleet Unit Bool :=
  ⟨⟨"csms"⟩,fun _ => "runtime-a",fun _ => 30000000000,fun _ => (),fun _ => "station-1"⟩

def resetOf (generation : UInt64) : Command :=
  ⟨"4f1e","station-1","runtime-a",generation,"Reset",encodeReset ⟨"OnIdle",none⟩,0,30000000000⟩

def connects (x : Bool) : List (Connections.Action Unit Bool Unit) :=
  [.register x,.callback (.connectClaim x .answered),.callback (.connectStore x)]

def disconnects (x : Bool) : List (Connections.Action Unit Bool Unit) :=
  [.unregister x,.callback (.disconnectTake x),.callback (.disconnectRelease x .answered)]

/-- The station leaves and comes back between the check and the lookup. -/
def reconnectingRun : List (Connections.Action Unit Bool Unit) :=
  connects false ++ [.check () () none (resetOf 1)] ++ disconnects false ++ connects true ++ [.lookup ()]

/-- A command for a station that stays, while its lease is renewed, reaches the connection it was fenced
to. -/
theorem handleCommand_fencedSession_staying :
    let atCheck := (Connections.start Keyspace.empty 0).run twoConnections (fun _ => .ocpp16) ⟨id,id⟩
      (connects false)
    let atLookup := (atCheck.check twoConnections (fun _ => .ocpp16) () () none (resetOf 1)).run
      twoConnections (fun _ => .ocpp16) ⟨id,id⟩ [.callback (.renewTick false .answered)]
    let after := atLookup.lookup (fun _ => .ocpp16) ⟨id,id⟩ ()
    ∃ call, after.calls = [call] ∧ Connections.FencedTo after.world (resetOf 1) call.session := by
  intro atCheck atLookup after
  obtain ⟨call,hcall⟩ : ∃ call, after.calls = [call] := List.length_eq_one_iff.mp (by decide +kernel)
  have hnone : atLookup.calls = [] := List.length_eq_zero_iff.mp (by decide +kernel)
  have hidle : atCheck.handler () = none := Option.isNone_iff_eq_none.mp (by decide +kernel)
  have hstored : atCheck.world.writes () "station-1" = some (.stored false) := by decide +kernel
  have htable : atCheck.registered () "station-1" = some false := by decide +kernel
  have hfenced := handleCommand_fencedSession twoConnections (fun _ => .ocpp16) ⟨id,id⟩ Keyspace.empty 0
    ⟨fun _ => rfl,rfl⟩ (connects false) [.callback (.renewTick false .answered)] () () none (resetOf 1)
    (by decide +kernel) hidle (by simp [Connections.Action.thread])
    (fun x hx => by
      cases hstored.symm.trans hx
      exact ⟨htable,by simp⟩) call (by rw [hnone]; exact hcall)
  exact ⟨call,hcall,hfenced.2⟩

/-- The command for the first generation goes to the connection that claimed the second. -/
theorem handleCommand_fencedSession_reconnecting :
    let c := (Connections.start Keyspace.empty 0).run twoConnections (fun _ => .ocpp16) ⟨id,id⟩
      reconnectingRun
    c.calls.map (fun call => (call.command.ownerGeneration,call.session)) = [(1,true)] ∧
      (c.world.claimed true).map Lease.generation = some 2 := by
  decide +kernel

end CsmsPlatform
