import Mathlib.Tactic.ByContra
import Mathlib.Tactic.SplitIfs

/-!
# Readiness during shutdown

`serve` and the command consumer are two goroutines that write one flag. Every read of a context and
every store to the flag is a step of its own. The run context is cancelled after the one it derives
from, by the runtime or by `serve`. A ping may succeed whenever one is under way.
-/

namespace CsmsPlatform.Runtime

/-! ## The health endpoint -/

structure Response where
  status : Nat
  body : String
deriving DecidableEq, Repr

def readiness (ready : Bool) : Response := if !ready then ⟨503,"not ready\n"⟩ else ⟨200,""⟩

/-! ## The two goroutines -/

inductive ServePoint where
  | entering
  | opening
  | spawning
  | selecting
  | failed
  | cancelled
  | stopping
  | closing
  | returning
  | returned
deriving DecidableEq, Repr

inductive ConsumerPoint where
  | consuming
  | checking
  | failing
  | waiting
  | pinging
  | recovered
  | returned
deriving DecidableEq, Repr

structure Serving where
  hasCommandBus : Bool
  ready : Bool
  ctxDone : Bool
  runCtxDone : Bool
  serve : ServePoint
  consumer : Option ConsumerPoint
deriving DecidableEq, Repr

inductive Step where
  | cancelCtx
  | propagate
  | deriveRunCtx
  | storeReady
  | spawn
  | receiveError
  | storeFailed
  | seeCancelled
  | storeStopping
  | cancelRun
  | shutDown
  | deferredCancel
  | consumerReturns
  | readErr
  | storeUnavailable
  | timerFires
  | seeDone
  | pingFails
  | pingSucceeds
  | storeRecovered
deriving DecidableEq, Repr

def Step.storesReady : Step → Bool
  | .storeReady => true
  | .storeRecovered => true
  | _ => false

namespace Serving

def start (hasCommandBus ctxDone : Bool) : Serving :=
  ⟨hasCommandBus,false,ctxDone,false,.entering,none⟩

def advance (state : Serving) (source target : ServePoint) : Option Serving :=
  if state.serve = source then some { state with serve := target } else none

def proceed (state : Serving) (source target : ConsumerPoint) : Option Serving :=
  if state.consumer = some source then some { state with consumer := some target } else none

def store (ready : Bool) (state : Serving) : Serving := { state with ready }

def endRunCtx (state : Serving) : Serving := { state with runCtxDone := true }

def step (state : Serving) : Step → Option Serving
  | .cancelCtx => some { state with ctxDone := true }
  | .propagate => if state.ctxDone ∧ state.serve ≠ .entering then some state.endRunCtx else none
  | .deriveRunCtx =>
    (state.advance .entering .opening).map fun next => { next with runCtxDone := state.ctxDone }
  | .storeReady => (state.advance .opening .spawning).map (store true)
  | .spawn =>
    (state.advance .spawning .selecting).map fun next =>
      { next with consumer := if state.hasCommandBus then some .consuming else none }
  | .receiveError => state.advance .selecting .failed
  | .storeFailed => (state.advance .failed .returning).map (store false)
  | .seeCancelled => if state.ctxDone then state.advance .selecting .cancelled else none
  | .storeStopping => (state.advance .cancelled .stopping).map (store false)
  | .cancelRun => (state.advance .stopping .closing).map endRunCtx
  | .shutDown => state.advance .closing .returning
  | .deferredCancel => (state.advance .returning .returned).map endRunCtx
  | .consumerReturns => state.proceed .consuming .checking
  | .readErr => state.proceed .checking (if state.runCtxDone then .returned else .failing)
  | .storeUnavailable => (state.proceed .failing .waiting).map (store false)
  | .timerFires => state.proceed .waiting .pinging
  | .seeDone => if state.runCtxDone then state.proceed .waiting .returned else none
  | .pingFails => state.proceed .pinging .waiting
  | .pingSucceeds => state.proceed .pinging .recovered
  | .storeRecovered => (state.proceed .recovered .consuming).map (store true)

def run (state : Serving) : List Step → Option Serving
  | [] => some state
  | action::rest => (state.step action).bind fun next => next.run rest

variable {state next final : Serving}

theorem run_cons {action : Step} {rest : List Step} (h : state.run (action::rest) = some final) :
    ∃ next, state.step action = some next ∧ next.run rest = some final :=
  Option.bind_eq_some_iff.mp h

theorem run_append (state : Serving) (before after : List Step) :
    state.run (before ++ after) = (state.run before).bind fun mid => mid.run after := by
  induction before generalizing state with
  | nil => rfl
  | cons action rest ih =>
    simp only [List.cons_append,run]
    cases state.step action with
    | none => rfl
    | some next => exact ih next

theorem advance_eq {source target : ServePoint} (h : state.advance source target = some next) :
    state.serve = source ∧ next = { state with serve := target } := by
  unfold advance at h
  split_ifs at h with hs
  · cases h
    exact ⟨hs,rfl⟩

theorem proceed_eq {source target : ConsumerPoint} (h : state.proceed source target = some next) :
    state.consumer = some source ∧ next = { state with consumer := some target } := by
  unfold proceed at h
  split_ifs at h with hc
  · cases h
    exact ⟨hc,rfl⟩

end Serving

def ServePoint.stopped : ServePoint → Bool
  | .stopping => true
  | .closing => true
  | .returning => true
  | .returned => true
  | _ => false

def ConsumerPoint.outsideRecovery : ConsumerPoint → Bool
  | .consuming => true
  | .checking => true
  | .returned => true
  | _ => false

namespace Serving

variable {state next final : Serving}

/-- There is no consumer, or it has returned, or it is outside its recovery loop and its context is
done. -/
def Quiescent (state : Serving) : Prop :=
  ∀ point, state.consumer = some point →
    point = .returned ∨ state.runCtxDone = true ∧ point.outsideRecovery = true

/-- Not ready, and nobody left who would say otherwise. -/
structure Down (state : Serving) : Prop where
  serve : state.serve.stopped = true
  ready : state.ready = false
  consumer : state.Quiescent

section Down

variable {source target : ServePoint} {point point' : ConsumerPoint}

theorem Down.past (h : state.Down) (hs : source.stopped = false) : state.advance source target = none := by
  have hne : state.serve ≠ source := by
    intro he
    rw [← he,h.serve] at hs
    cases hs
  exact if_neg hne

theorem Down.advance (h : state.Down) (hn : state.advance source target = some next)
    (ht : target.stopped = true) : next.Down := by
  obtain ⟨_,rfl⟩ := advance_eq hn
  exact ⟨ht,h.ready,h.consumer⟩

theorem Down.endRunCtx (h : state.Down) : state.endRunCtx.Down :=
  ⟨h.serve,h.ready,fun point hp => (h.consumer point hp).imp_right fun hq => ⟨rfl,hq.2⟩⟩

theorem Down.unreached (h : state.Down) (hp : point.outsideRecovery = false) :
    state.proceed point point' = none := by
  have hne : state.consumer ≠ some point := by
    intro he
    rcases h.consumer point he with rfl | ⟨_,hq⟩
    · cases hp
    · rw [hp] at hq
      cases hq
  exact if_neg hne

theorem Down.runCtxDone (h : state.Down) (hc : state.consumer = some point) (hp : point ≠ .returned) :
    state.runCtxDone = true :=
  ((h.consumer point hc).resolve_left hp).1

theorem Down.proceed (h : state.Down) (hn : state.proceed point point' = some next)
    (hp : point ≠ .returned) (hp' : point'.outsideRecovery = true) : next.Down := by
  obtain ⟨hc,rfl⟩ := proceed_eq hn
  refine ⟨h.serve,h.ready,fun q hq => .inr ?_⟩
  cases hq
  exact ⟨h.runCtxDone hc hp,hp'⟩

/-- Once the flag is down for good, no step raises it. -/
theorem Down.step (h : state.Down) {action : Step} (hn : state.step action = some next) :
    action.storesReady = false ∧ next.Down := by
  cases action with
  | cancelCtx =>
    cases hn
    exact ⟨rfl,h.serve,h.ready,h.consumer⟩
  | propagate =>
    simp only [Serving.step] at hn
    split_ifs at hn
    cases hn
    exact ⟨rfl,h.endRunCtx⟩
  | deriveRunCtx | storeReady | spawn | receiveError | storeFailed | storeStopping =>
    rw [Serving.step,h.past rfl] at hn
    cases hn
  | seeCancelled =>
    rw [Serving.step,h.past rfl,ite_self] at hn
    cases hn
  | shutDown => exact ⟨rfl,h.advance hn rfl⟩
  | cancelRun | deferredCancel =>
    obtain ⟨mid,hmid,rfl⟩ := Option.map_eq_some_iff.mp hn
    exact ⟨rfl,(h.advance hmid rfl).endRunCtx⟩
  | consumerReturns => exact ⟨rfl,h.proceed hn (by decide) rfl⟩
  | readErr =>
    obtain ⟨hc,_⟩ := proceed_eq hn
    rw [Serving.step,if_pos (h.runCtxDone hc (by decide))] at hn
    exact ⟨rfl,h.proceed hn (by decide) rfl⟩
  | storeUnavailable | timerFires | pingFails | pingSucceeds | storeRecovered =>
    rw [Serving.step,h.unreached rfl] at hn
    cases hn
  | seeDone =>
    rw [Serving.step,h.unreached rfl,ite_self] at hn
    cases hn

theorem Down.run (h : state.Down) {actions : List Step} (hrun : state.run actions = some final) :
    (∀ action ∈ actions, action.storesReady = false) ∧ final.Down := by
  induction actions generalizing state with
  | nil =>
    cases hrun
    exact ⟨by simp,h⟩
  | cons action rest ih =>
    obtain ⟨next,hnext,hrest⟩ := run_cons hrun
    obtain ⟨hquiet,hdown⟩ := h.step hnext
    obtain ⟨hall,hfinal⟩ := ih hdown hrest
    exact ⟨List.forall_mem_cons.mpr ⟨hquiet,hall⟩,hfinal⟩

end Down

def stopping (state : Serving) : Serving := { state with serve := .stopping,ready := false }

theorem step_storeStopping (h : state.serve = .cancelled) :
    state.step .storeStopping = some state.stopping := by
  simp [Serving.step,Serving.advance,h,store,stopping]

theorem Quiescent.down (h : state.Quiescent) : state.stopping.Down := ⟨rfl,rfl,h⟩

/-- The consumer's own steps to its store of `true`, from each point of its loop. -/
def recovery : ConsumerPoint → List Step
  | .consuming => [.consumerReturns,.readErr,.storeUnavailable,.timerFires,.pingSucceeds,.storeRecovered]
  | .checking => [.readErr,.storeUnavailable,.timerFires,.pingSucceeds,.storeRecovered]
  | .failing => [.storeUnavailable,.timerFires,.pingSucceeds,.storeRecovered]
  | .waiting => [.timerFires,.pingSucceeds,.storeRecovered]
  | .pinging => [.pingSucceeds,.storeRecovered]
  | .recovered => [.storeRecovered]
  | .returned => []

theorem run_recovery {point : ConsumerPoint} (hc : state.consumer = some point)
    (hreturned : point ≠ .returned)
    (h : point.outsideRecovery = true → state.runCtxDone = false) :
    .storeRecovered ∈ recovery point ∧ ∃ final, state.run (recovery point) = some final := by
  obtain ⟨hasCommandBus,ready,ctxDone,runCtxDone,serve,consumer⟩ := state
  dsimp only at hc h
  subst hc
  cases point with
  | consuming =>
    obtain rfl := h rfl
    exact ⟨by decide,_,rfl⟩
  | checking =>
    obtain rfl := h rfl
    exact ⟨by decide,_,rfl⟩
  | failing => exact ⟨by decide,_,rfl⟩
  | waiting => exact ⟨by decide,_,rfl⟩
  | pinging => exact ⟨by decide,_,rfl⟩
  | recovered => exact ⟨by decide,_,rfl⟩
  | returned => exact absurd rfl hreturned

end Serving

/-- In every run that brings `serve` to its store on cancellation, no step after that store raises
the flag and every later probe is told not ready, exactly when there is no consumer at that moment,
or it has returned, or it is outside its recovery loop with its context done. -/
theorem readiness_staysDown_iff (hasCommandBus ctxDone : Bool) (before : List Step) (state : Serving)
    (hrun : (Serving.start hasCommandBus ctxDone).run before = some state)
    (hserve : state.serve = .cancelled) :
    (∀ after final,
      (Serving.start hasCommandBus ctxDone).run (before ++ .storeStopping::after) = some final →
      (∀ action ∈ after, action.storesReady = false) ∧ readiness final.ready = ⟨503,"not ready\n"⟩) ↔
    state.Quiescent := by
  have hsplit (after : List Step) :
      (Serving.start hasCommandBus ctxDone).run (before ++ .storeStopping::after) =
        state.stopping.run after := by
    simp [Serving.run_append,hrun,Serving.run,Serving.step_storeStopping hserve]
  constructor
  · intro hall point hc
    by_contra hloud
    rw [not_or,not_and] at hloud
    have hopen : point.outsideRecovery = true → state.stopping.runCtxDone = false := fun hp =>
      Bool.eq_false_iff.mpr fun hdone => hloud.2 hdone hp
    have hstill : state.stopping.consumer = some point := hc
    obtain ⟨hmem,final,hfinal⟩ := Serving.run_recovery hstill hloud.1 hopen
    rw [← hsplit] at hfinal
    exact absurd ((hall _ _ hfinal).1 _ hmem) (by decide)
  · intro hquiet after final hfinal
    rw [hsplit] at hfinal
    obtain ⟨hall,hdown⟩ := hquiet.down.run hfinal
    exact ⟨hall,by rw [hdown.ready]; rfl⟩

theorem readiness_staysDown_consuming :
    ∃ state, (Serving.start true false).run
        [.deriveRunCtx,.storeReady,.spawn,.cancelCtx,.propagate,.seeCancelled] = some state ∧
      ∀ after final, (Serving.start true false).run
        ([.deriveRunCtx,.storeReady,.spawn,.cancelCtx,.propagate,.seeCancelled] ++
          .storeStopping::after) = some final →
        (∀ action ∈ after, action.storesReady = false) ∧ readiness final.ready = ⟨503,"not ready\n"⟩ := by
  refine ⟨_,rfl,(readiness_staysDown_iff true false _ _ rfl rfl).mpr ?_⟩
  intro point hc
  cases hc
  exact .inr ⟨rfl,rfl⟩

/-- A ping that succeeded before the cancellation is reported after it: `serve` stores `false`, the
consumer stores `true`, and the probe is told ready while the server shuts down. -/
theorem readiness_comesBack :
    ∃ state final, (Serving.start true false).run [.deriveRunCtx,.storeReady,.spawn,.consumerReturns,
        .readErr,.storeUnavailable,.timerFires,.pingSucceeds,.cancelCtx,.seeCancelled,.storeStopping] =
          some state ∧
      readiness state.ready = ⟨503,"not ready\n"⟩ ∧
      state.run [.cancelRun,.storeRecovered,.shutDown,.deferredCancel] = some final ∧
      Step.storeRecovered.storesReady = true ∧ readiness final.ready = ⟨200,""⟩ :=
  ⟨_,_,rfl,rfl,rfl,rfl,rfl⟩

end CsmsPlatform.Runtime
