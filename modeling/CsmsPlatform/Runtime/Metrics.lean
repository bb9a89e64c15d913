import CsmsPlatform.Framework.Counters
import CsmsPlatform.Runtime.CommandRequest

/-!
# Metrics

What the runtime counts of the OCPP events and of the requests to the command API. The action of an event
is whatever a station put into its frame, so the labels keep to the actions that the runtime handles.
-/

namespace CsmsPlatform.Runtime

inductive MetricEventType where
  | sessionConnected
  | sessionDisconnected
  | callReceived
  | callCompleted
  | callRejected
  | sendReceived
  | sendCompleted
  | sendDropped
  | outboundCallRejected
  | outboundCallSent
  | outboundCallCompleted
  | outboundCallFailed
  | outboundCallTimeout
  | outboundCallCanceled
  /-- Any type of which the runtime knows nothing. -/
  | other
deriving DecidableEq, Repr

structure MetricEvent where
  type : MetricEventType
  identity : String
  version : String
  action : String
  errorCode : String
  /-- In nanoseconds. -/
  duration : Int
deriving DecidableEq, Repr

structure EventLabels where
  type : String
  action : String
  version : String
  errorCode : String
deriving DecidableEq, Repr

structure DurationLabels where
  type : String
  action : String
  version : String
deriving DecidableEq, Repr

structure RuntimeMetrics where
  commandRequests : MetricVec String Nat
  commandDuration : List Int
  ocppEvents : MetricVec EventLabels Nat
  ocppEventDuration : MetricVec DurationLabels (List Int)

def newRuntimeMetrics : RuntimeMetrics := ⟨.new 0,[],.new 0,.new []⟩

/-- One operation on a metric, which no other interrupts. -/
inductive MetricOp where
  | incRequests (statusClass : String)
  | observeRequest (elapsed : Int)
  | incEvents (labels : EventLabels)
  | observeEvent (labels : DurationLabels) (duration : Int)
deriving DecidableEq, Repr

def RuntimeMetrics.apply (metrics : RuntimeMetrics) : MetricOp → RuntimeMetrics
  | .incRequests statusClass =>
    { metrics with commandRequests := metrics.commandRequests.update statusClass (·+1) }
  | .observeRequest elapsed => { metrics with commandDuration := metrics.commandDuration ++ [elapsed] }
  | .incEvents labels => { metrics with ocppEvents := metrics.ocppEvents.update labels (·+1) }
  | .observeEvent labels duration =>
    { metrics with ocppEventDuration := metrics.ocppEventDuration.update labels (· ++ [duration]) }

def statusClass (status : Nat) : String :=
  match status/100 with
  | 2 => "2xx"
  | 4 => "4xx"
  | 5 => "5xx"
  | _ => "other"

def knownOCPPActions : List String := ["BootNotification","Heartbeat","StatusNotification",resetAction]

def ocppEventLabel : MetricEventType → String
  | .sessionConnected => "session_connected"
  | .sessionDisconnected => "session_disconnected"
  | .callReceived => "call_received"
  | .callCompleted => "call_completed"
  | .callRejected => "call_rejected"
  | .sendReceived => "send_received"
  | .sendCompleted => "send_completed"
  | .sendDropped => "send_dropped"
  | .outboundCallRejected => "outbound_call_rejected"
  | .outboundCallSent => "outbound_call_sent"
  | .outboundCallCompleted => "outbound_call_completed"
  | .outboundCallFailed => "outbound_call_failed"
  | .outboundCallTimeout => "outbound_call_timeout"
  | .outboundCallCanceled => "outbound_call_canceled"
  | .other => "unknown"

def actionLabel (action : String) : String := if action ∈ knownOCPPActions then action else "unknown"

def recordOCPPEvent (event : MetricEvent) : List MetricOp :=
  let eventType := ocppEventLabel event.type
  let action := actionLabel event.action
  .incEvents ⟨eventType,action,event.version,event.errorCode⟩ ::
    if event.duration > 0 then [.observeEvent ⟨eventType,action,event.version⟩ event.duration] else []

/-- A request with the response that the handler has written, whatever it was replied. -/
structure ServedRequest where
  api : Api
  request : ApiRequest
  trace : List Exchange
  response : ApiResponse
  runs : (serverCommandHandler api request).Runs trace response
  elapsed : Int

/-- What follows on `next.ServeHTTP`. The recorder holds the status of the handler's `WriteHeader`. -/
def commandMiddleware (served : ServedRequest) : List MetricOp :=
  [.incRequests (statusClass served.response.status),.observeRequest served.elapsed]

/-! ## Labels -/

def eventTypes : List MetricEventType := [.sessionConnected,.sessionDisconnected,.callReceived,
  .callCompleted,.callRejected,.sendReceived,.sendCompleted,.sendDropped,.outboundCallRejected,
  .outboundCallSent,.outboundCallCompleted,.outboundCallFailed,.outboundCallTimeout,
  .outboundCallCanceled,.other]

def ownLabels : Finset (String × String) :=
  (eventTypes.map ocppEventLabel).toFinset ×ˢ ("unknown" :: knownOCPPActions).toFinset

theorem card_ownLabels : ownLabels.card ≤ 75 := by
  rw [ownLabels,Finset.card_product]
  exact Nat.mul_le_mul (List.toFinset_card_le _) (List.toFinset_card_le _)

theorem mem_ownLabels (event : MetricEvent) :
    (ocppEventLabel event.type,actionLabel event.action) ∈ ownLabels := by
  rw [ownLabels,Finset.mem_product,List.mem_toFinset,List.mem_toFinset]
  constructor
  · apply List.mem_map_of_mem
    cases event.type <;> decide
  · dsimp only [actionLabel]
    split
    next hknown => exact List.mem_cons_of_mem _ hknown
    next => exact List.mem_cons_self

def eventLabels (versions errorCodes : Finset String) : Finset EventLabels :=
  (ownLabels ×ˢ versions ×ˢ errorCodes).image fun l => ⟨l.1.1,l.1.2,l.2.1,l.2.2⟩

def durationLabels (versions : Finset String) : Finset DurationLabels :=
  (ownLabels ×ˢ versions).image fun l => ⟨l.1.1,l.1.2,l.2⟩

theorem card_eventLabels (versions errorCodes : Finset String) :
    (eventLabels versions errorCodes).card ≤ 75*(versions.card*errorCodes.card) := by
  apply Finset.card_image_le.trans
  rw [Finset.card_product,Finset.card_product]
  exact Nat.mul_le_mul_right _ card_ownLabels

theorem card_durationLabels (versions : Finset String) :
    (durationLabels versions).card ≤ 75*versions.card := by
  apply Finset.card_image_le.trans
  rw [Finset.card_product]
  exact Nat.mul_le_mul_right _ card_ownLabels

theorem mem_eventLabels {versions errorCodes : Finset String} {e : MetricEvent}
    (hversion : e.version ∈ versions) (hcode : e.errorCode ∈ errorCodes) :
    ⟨ocppEventLabel e.type,actionLabel e.action,e.version,e.errorCode⟩ ∈ eventLabels versions errorCodes := by
  apply Finset.mem_image.mpr
  refine ⟨((ocppEventLabel e.type,actionLabel e.action),e.version,e.errorCode),?_,rfl⟩
  simp [mem_ownLabels,hversion,hcode]

theorem mem_durationLabels {versions : Finset String} {e : MetricEvent} (hversion : e.version ∈ versions) :
    ⟨ocppEventLabel e.type,actionLabel e.action,e.version⟩ ∈ durationLabels versions := by
  apply Finset.mem_image.mpr
  refine ⟨((ocppEventLabel e.type,actionLabel e.action),e.version),?_,rfl⟩
  simp [mem_ownLabels,hversion]

theorem actionLabel_eq_known {action known : String} (h : known ∈ knownOCPPActions) :
    actionLabel action = known ↔ action = known := by
  unfold actionLabel
  split
  · rfl
  next hunknown =>
    constructor
    · rintro rfl
      exact absurd h (by decide)
    · rintro rfl
      exact absurd h hunknown

theorem actionLabel_eq_unknown {action : String} :
    actionLabel action = "unknown" ↔ action ∉ knownOCPPActions := by
  unfold actionLabel
  split
  next hknown =>
    constructor
    · rintro rfl
      exact absurd hknown (by decide)
    · intro h
      exact absurd hknown h
  next hunknown => simp [hunknown]

/-- A status of the classes that the handler is counted under. -/
def Answered (response : ApiResponse) : Prop := statusClass response.status ∈ ["2xx","4xx","5xx"]

theorem answered_error {status : Nat} {retryAfter : Option String} {body : String}
    (h : statusClass status ∈ ["2xx","4xx","5xx"]) : Answered ⟨status,retryAfter,body⟩ := h

theorem returns_dispatch (keyID : String) (command : Command) : (dispatch keyID command).Returns Answered := by
  intro reply
  change Except String Unit at reply
  cases reply with
  | error err =>
    intro _
    exact answered_error (by decide)
  | ok _ =>
    intro _ reply
    change Except String Result at reply
    cases reply with
    | error err =>
      intro _
      exact answered_error (by decide)
    | ok result =>
      intro _
      change Answered (writeResult result)
      cases hsuccess : result.success <;> simp [Answered,writeResult,statusClass,hsuccess]

theorem returns_admitted (api : Api) (request : ApiRequest) (keyID : String) :
    (admitted api request keyID).Returns Answered := by
  unfold admitted
  rcases resetPathIdentity request.path with ⟨identity,accepted⟩
  cases accepted with
  | false => exact answered_error (by decide)
  | true =>
    cases decodePayload request.body with
    | none => exact answered_error (by decide)
    | some payload =>
      intro reply
      change Except RegistryError Lease at reply
      cases reply with
      | error err =>
        cases err <;> exact answered_error (by decide)
      | ok lease =>
        intro now id
        exact returns_dispatch _ _

theorem returns_serverCommandHandler (api : Api) (request : ApiRequest) :
    (serverCommandHandler api request).Returns Answered := by
  unfold serverCommandHandler
  split_ifs
  · exact answered_error (by decide)
  · exact answered_error (by decide)
  · rcases authenticateBearer api.sum256 request.authorization api.apiKeys with ⟨keyID,accepted⟩
    cases accepted with
    | false =>
      intro _
      exact answered_error (by decide)
    | true =>
      intro reply
      change Except String Bool at reply
      rcases reply with err | _ | _
      · intro _
        exact answered_error (by decide)
      · intro _
        exact answered_error (by decide)
      · exact returns_admitted api request keyID

/-! ## Counts -/

namespace MetricOp

def requestClass : MetricOp → Option String
  | .incRequests statusClass => some statusClass
  | _ => none

def elapsed : MetricOp → Option Int
  | .observeRequest elapsed => some elapsed
  | _ => none

def eventLabels : MetricOp → Option EventLabels
  | .incEvents labels => some labels
  | _ => none

def durationLabels : MetricOp → Option DurationLabels
  | .observeEvent labels _ => some labels
  | _ => none

end MetricOp

/-- The metrics tell how often each operation has been done, not in which order. -/
structure Recorded (metrics : RuntimeMetrics) (ops : List MetricOp) : Prop where
  requests : metrics.commandRequests.Counts id (ops.filterMap MetricOp.requestClass)
  elapsed : metrics.commandDuration.Perm (ops.filterMap MetricOp.elapsed)
  events : metrics.ocppEvents.Counts id (ops.filterMap MetricOp.eventLabels)
  durations : metrics.ocppEventDuration.Counts List.length (ops.filterMap MetricOp.durationLabels)

theorem recorded_new : Recorded newRuntimeMetrics [] where
  requests := MetricVec.counts_new rfl
  elapsed := .refl []
  events := MetricVec.counts_new rfl
  durations := MetricVec.counts_new rfl

theorem Recorded.perm {metrics : RuntimeMetrics} {ops ops' : List MetricOp} (h : Recorded metrics ops)
    (hperm : ops.Perm ops') : Recorded metrics ops' where
  requests := Multiset.coe_eq_coe.mpr (hperm.filterMap _) ▸ h.requests
  elapsed := h.elapsed.trans (hperm.filterMap _)
  events := Multiset.coe_eq_coe.mpr (hperm.filterMap _) ▸ h.events
  durations := Multiset.coe_eq_coe.mpr (hperm.filterMap _) ▸ h.durations

theorem Recorded.apply {metrics : RuntimeMetrics} {ops : List MetricOp} (h : Recorded metrics ops)
    (op : MetricOp) : Recorded (metrics.apply op) (op::ops) := by
  cases op with
  | incRequests statusClass =>
    exact ⟨h.requests.update (fun _ => rfl) statusClass,h.elapsed,h.events,h.durations⟩
  | observeRequest elapsed =>
    exact ⟨h.requests,List.perm_append_singleton _ _ |>.trans (h.elapsed.cons elapsed),h.events,h.durations⟩
  | incEvents labels =>
    exact ⟨h.requests,h.elapsed,h.events.update (fun _ => rfl) labels,h.durations⟩
  | observeEvent labels duration =>
    have hlength : ∀ observed : List Int, (observed ++ [duration]).length = observed.length+1 :=
      fun _ => List.length_append
    exact ⟨h.requests,h.elapsed,h.events,h.durations.update hlength labels⟩

theorem Recorded.run {metrics : RuntimeMetrics} {before : List MetricOp} (h : Recorded metrics before)
    (ops : List MetricOp) : Recorded (ops.foldl RuntimeMetrics.apply metrics) (ops ++ before) := by
  induction ops generalizing metrics before with
  | nil => exact h
  | cons op rest ih => exact (ih (h.apply op)).perm List.perm_middle

/-! ## Events and requests -/

inductive Job where
  | event (event : MetricEvent)
  | request (served : ServedRequest)

namespace Job

def operations : Job → List MetricOp
  | .event e => recordOCPPEvent e
  | .request served => commandMiddleware served

def isEvent (p : MetricEvent → Bool) : Job → Bool
  | .event e => p e
  | .request _ => false

def isRequest : Job → Bool
  | .event _ => false
  | .request _ => true

end Job

structure Progress where
  job : Job
  operations : Nat

namespace Progress

def ops (progress : Progress) : List MetricOp := progress.job.operations.take progress.operations

def eventLabels : Progress → Option EventLabels
  | ⟨.event e,_+1⟩ => some ⟨ocppEventLabel e.type,actionLabel e.action,e.version,e.errorCode⟩
  | _ => none

def durationLabels : Progress → Option DurationLabels
  | ⟨.event e,_+2⟩ =>
    if e.duration > 0 then some ⟨ocppEventLabel e.type,actionLabel e.action,e.version⟩ else none
  | _ => none

def requestClass : Progress → Option String
  | ⟨.request served,_+1⟩ => some (statusClass served.response.status)
  | _ => none

def elapsed : Progress → Option Int
  | ⟨.request served,_+2⟩ => some served.elapsed
  | _ => none

theorem eventLabels_eq_some {progress : Progress} {labels : EventLabels}
    (h : progress.eventLabels = some labels) : ∃ e n, progress = ⟨.event e,n⟩ ∧
      labels = ⟨ocppEventLabel e.type,actionLabel e.action,e.version,e.errorCode⟩ := by
  obtain ⟨e | served,_ | n⟩ := progress
  · cases h
  · cases h
    exact ⟨e,n+1,rfl,rfl⟩
  · cases h
  · cases h

theorem durationLabels_eq_some {progress : Progress} {labels : DurationLabels}
    (h : progress.durationLabels = some labels) : ∃ e n, progress = ⟨.event e,n⟩ ∧
      labels = ⟨ocppEventLabel e.type,actionLabel e.action,e.version⟩ := by
  obtain ⟨e | served,_ | _ | n⟩ := progress
  · cases h
  · cases h
  · obtain ⟨_,hlabels⟩ := Option.ite_none_right_eq_some.mp h
    cases hlabels
    exact ⟨e,n+2,rfl,rfl⟩
  · cases h
  · cases h
  · cases h

theorem requestClass_eq_some {progress : Progress} {status : String}
    (h : progress.requestClass = some status) : status ∈ ["2xx","4xx","5xx"] := by
  obtain ⟨e | served,_ | n⟩ := progress
  · cases h
  · cases h
  · cases h
  · cases h
    exact (returns_serverCommandHandler _ _).runs served.runs

theorem ops_parts (progress : Progress) :
    progress.ops.filterMap MetricOp.eventLabels = progress.eventLabels.toList ∧
    progress.ops.filterMap MetricOp.durationLabels = progress.durationLabels.toList ∧
    progress.ops.filterMap MetricOp.requestClass = progress.requestClass.toList ∧
    progress.ops.filterMap MetricOp.elapsed = progress.elapsed.toList := by
  obtain ⟨job,n⟩ := progress
  cases job with
  | event e =>
    by_cases hduration : e.duration > 0 <;> rcases n with _ | _ | n <;>
      simp [ops,Job.operations,recordOCPPEvent,hduration,List.filterMap_cons,MetricOp.eventLabels,
        MetricOp.durationLabels,MetricOp.requestClass,MetricOp.elapsed,eventLabels,durationLabels,
        requestClass,elapsed]
  | request served =>
    rcases n with _ | _ | n <;>
      simp [ops,Job.operations,commandMiddleware,List.filterMap_cons,MetricOp.eventLabels,
        MetricOp.durationLabels,MetricOp.requestClass,MetricOp.elapsed,eventLabels,durationLabels,
        requestClass,elapsed]

end Progress

theorem recorded_jobs {jobs : List Progress} {ops : List MetricOp}
    (h : ops.Perm (jobs.flatMap Progress.ops)) :
    let metrics := ops.foldl RuntimeMetrics.apply newRuntimeMetrics
    metrics.ocppEvents.Counts id (jobs.filterMap Progress.eventLabels) ∧
    metrics.ocppEventDuration.Counts List.length (jobs.filterMap Progress.durationLabels) ∧
    metrics.commandRequests.Counts id (jobs.filterMap Progress.requestClass) ∧
    metrics.commandDuration.Perm (jobs.filterMap Progress.elapsed) := by
  have hrecorded := (recorded_new.run ops).perm ((List.append_nil ops).symm ▸ h)
  refine ⟨?_,?_,?_,?_⟩
  · rw [← List.filterMap_flatMap_of_toList fun job => (Progress.ops_parts job).1]
    exact hrecorded.events
  · rw [← List.filterMap_flatMap_of_toList fun job => (Progress.ops_parts job).2.1]
    exact hrecorded.durations
  · rw [← List.filterMap_flatMap_of_toList fun job => (Progress.ops_parts job).2.2.1]
    exact hrecorded.requests
  · rw [← List.filterMap_flatMap_of_toList fun job => (Progress.ops_parts job).2.2.2]
    exact hrecorded.elapsed

theorem countP_eventLabels (jobs : List Progress) (p : EventLabels → Prop) [DecidablePred p]
    (q : MetricEvent → Bool) (h : ∀ e : MetricEvent,
      decide (p ⟨ocppEventLabel e.type,actionLabel e.action,e.version,e.errorCode⟩) = q e) :
    (jobs.filterMap Progress.eventLabels : Multiset EventLabels).countP p =
      jobs.countP fun progress => 1 ≤ progress.operations && progress.job.isEvent q := by
  rw [Multiset.coe_countP,List.countP_filterMap]
  congr 1
  funext ⟨job,n⟩
  cases job with
  | event e => cases n <;> simp [Progress.eventLabels,Job.isEvent,h]
  | request served => cases n <;> simp [Progress.eventLabels,Job.isEvent]

theorem length_durationLabels (jobs : List Progress) :
    (jobs.filterMap Progress.durationLabels).length =
      jobs.countP fun progress => 2 ≤ progress.operations && progress.job.isEvent fun e => e.duration > 0 := by
  rw [List.length_filterMap_eq_countP]
  congr 1
  funext ⟨job,n⟩
  cases job with
  | event e =>
    rcases n with _ | _ | n <;> by_cases hduration : e.duration > 0 <;>
      simp [Progress.durationLabels,Job.isEvent,hduration]
  | request served => rcases n with _ | _ | n <;> simp [Progress.durationLabels,Job.isEvent]

theorem length_requestClass (jobs : List Progress) :
    (jobs.filterMap Progress.requestClass).length =
      jobs.countP fun progress => 1 ≤ progress.operations && progress.job.isRequest := by
  rw [List.length_filterMap_eq_countP]
  congr 1
  funext ⟨job,n⟩
  cases job <;> cases n <;> simp [Progress.requestClass,Job.isRequest]

theorem length_elapsed (jobs : List Progress) :
    (jobs.filterMap Progress.elapsed).length =
      jobs.countP fun progress => 2 ≤ progress.operations && progress.job.isRequest := by
  rw [List.length_filterMap_eq_countP]
  congr 1
  funext ⟨job,n⟩
  cases job <;> rcases n with _ | _ | n <;> simp [Progress.elapsed,Job.isRequest]

/-- At every moment of any events and requests, their operations done so far in any order: whatever
actions the stations send, the series stay within the labels of the runtime, the versions and the error
codes. Each known action is counted exactly, all others together. A request is counted as what it was
answered with, and nothing is counted twice. -/
theorem metrics_bounded (jobs : List Progress) (ops : List MetricOp)
    (hops : ops.Perm (jobs.flatMap Progress.ops)) (versions errorCodes : Finset String)
    (hevents : ∀ event n, ⟨.event event,n⟩ ∈ jobs →
      event.version ∈ versions ∧ event.errorCode ∈ errorCodes) :
    let metrics := ops.foldl RuntimeMetrics.apply newRuntimeMetrics
    metrics.ocppEvents.series.card ≤ 75*(versions.card*errorCodes.card) ∧
    metrics.ocppEventDuration.series.card ≤ 75*versions.card ∧
    metrics.commandRequests.series ⊆ {"2xx","4xx","5xx"} ∧
    (∀ action ∈ knownOCPPActions,
      ∑ labels ∈ metrics.ocppEvents.series with labels.action = action, metrics.ocppEvents.value labels =
        jobs.countP fun p => 1 ≤ p.operations && p.job.isEvent fun e => e.action = action) ∧
    ∑ labels ∈ metrics.ocppEvents.series with labels.action = "unknown", metrics.ocppEvents.value labels =
      jobs.countP (fun p => 1 ≤ p.operations && p.job.isEvent fun e => e.action ∉ knownOCPPActions) ∧
    ∑ labels ∈ metrics.ocppEventDuration.series, (metrics.ocppEventDuration.value labels).length =
      jobs.countP (fun p => 2 ≤ p.operations && p.job.isEvent fun e => e.duration > 0) ∧
    ∑ status ∈ metrics.commandRequests.series, metrics.commandRequests.value status =
      jobs.countP (fun p => 1 ≤ p.operations && p.job.isRequest) ∧
    metrics.commandDuration.length = jobs.countP fun p => 2 ≤ p.operations && p.job.isRequest := by
  intro metrics
  obtain ⟨hcounts,hdurations,hrequests,helapsed⟩ := recorded_jobs hops
  refine ⟨?_,?_,?_,?_,?_,?_,?_,?_⟩
  · apply (hcounts.card_le _).trans (card_eventLabels versions errorCodes)
    intro labels hlabels
    obtain ⟨progress,hmem,hsome⟩ := List.mem_filterMap.mp hlabels
    obtain ⟨e,n,rfl,rfl⟩ := Progress.eventLabels_eq_some hsome
    obtain ⟨hversion,hcode⟩ := hevents e n hmem
    exact mem_eventLabels hversion hcode
  · apply (hdurations.card_le _).trans (card_durationLabels versions)
    intro labels hlabels
    obtain ⟨progress,hmem,hsome⟩ := List.mem_filterMap.mp hlabels
    obtain ⟨e,n,rfl,rfl⟩ := Progress.durationLabels_eq_some hsome
    exact mem_durationLabels (hevents e n hmem).1
  · intro status hstatus
    rw [hrequests.series,Multiset.mem_toFinset] at hstatus
    obtain ⟨progress,_,hsome⟩ := List.mem_filterMap.mp hstatus
    simpa using Progress.requestClass_eq_some hsome
  · intro action hknown
    apply (hcounts.sum fun labels => labels.action = action).trans
    apply countP_eventLabels
    intro e
    simp [actionLabel_eq_known hknown]
  · apply (hcounts.sum fun labels => labels.action = "unknown").trans
    apply countP_eventLabels
    intro e
    simp [actionLabel_eq_unknown]
  · exact hdurations.sum_all.trans (length_durationLabels jobs)
  · exact hrequests.sum_all.trans (length_requestClass jobs)
  · exact helapsed.length_eq.trans (length_elapsed jobs)

def strangeCall (action : String) : MetricEvent := ⟨.callReceived,"station-1","ocpp1.6",action,"",0⟩

def completedBoot : MetricEvent := ⟨.callCompleted,"station-1","ocpp1.6","BootNotification","",5000000⟩

def unauthorized : ServedRequest where
  api := betaApi
  request := { betaRequest with authorization := "Bearer gamma" }
  trace := _
  response := _
  runs := .call () (.done _)
  elapsed := 250000

/-- Two frames with actions that nobody handles, a boot whose duration is still to be observed and a
request without credentials. -/
def strangeJobs : List Progress := [⟨.event (strangeCall "NotARealAction"),2⟩,
  ⟨.event (strangeCall "Resetting"),1⟩,⟨.event completedBoot,1⟩,⟨.request unauthorized,2⟩]

theorem metrics_bounded_strangeCalls :
    let ops : List MetricOp := [.incRequests "4xx",
      .incEvents ⟨"call_received","unknown","ocpp1.6",""⟩,
      .incEvents ⟨"call_completed","BootNotification","ocpp1.6",""⟩,.observeRequest 250000,
      .incEvents ⟨"call_received","unknown","ocpp1.6",""⟩]
    let metrics := ops.foldl RuntimeMetrics.apply newRuntimeMetrics
    metrics.ocppEvents.series.card ≤ 75 ∧
    ∑ labels ∈ metrics.ocppEvents.series with labels.action = "unknown",
      metrics.ocppEvents.value labels = 2 ∧
    ∑ labels ∈ metrics.ocppEventDuration.series,(metrics.ocppEventDuration.value labels).length = 0 ∧
    ∑ status ∈ metrics.commandRequests.series,metrics.commandRequests.value status = 1 := by
  intro ops metrics
  have hevents : ∀ event n, ⟨.event event,n⟩ ∈ strangeJobs →
      event.version ∈ ({"ocpp1.6"} : Finset String) ∧ event.errorCode ∈ ({""} : Finset String) := by
    intro event n hmem
    simp only [strangeJobs,List.mem_cons,Progress.mk.injEq,Job.event.injEq,reduceCtorEq,false_and,
      or_false,List.not_mem_nil] at hmem
    rcases hmem with ⟨rfl,_⟩ | ⟨rfl,_⟩ | ⟨rfl,_⟩ <;> exact ⟨by decide,by decide⟩
  obtain ⟨hcard,_,_,_,hunknown,hdurations,hrequests,_⟩ :=
    metrics_bounded strangeJobs ops (by decide) {"ocpp1.6"} {""} hevents
  exact ⟨hcard,hunknown.trans (by decide),hdurations.trans (by decide),hrequests.trans (by decide)⟩

end CsmsPlatform.Runtime
