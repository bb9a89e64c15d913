import Mathlib.Data.List.Basic

/-!
# Owner references and status conditions

The parts of an object's metadata and status that a Kubernetes controller manages through the client
libraries. What the libraries promise is the structure `MetaLibrary`; the functions below it do what
their documentation says and keep those promises.
-/

namespace Kubernetes

structure OwnerReference where
  apiVersion : String
  kind : String
  name : String
  uid : String
  blockOwnerDeletion : Option Bool
  controller : Option Bool
deriving DecidableEq, Repr

def getControllerOf (refs : List OwnerReference) : Option OwnerReference :=
  refs.find? fun ref => ref.controller = some true

/-- An API version is a group, a slash and a version, or a version of the core group. -/
def apiGroup (apiVersion : String) : List Char :=
  if '/' ∈ apiVersion.toList then apiVersion.toList.takeWhile (· ≠ '/') else []

/-- References to one object: the group, the kind and the name are the same. -/
def referSameObject (a b : OwnerReference) : Bool :=
  apiGroup a.apiVersion = apiGroup b.apiVersion ∧ a.kind = b.kind ∧ a.name = b.name

inductive ConditionStatus where
  | isTrue
  | isFalse
  | unknown
deriving DecidableEq, Repr

structure Condition where
  type : String
  status : ConditionStatus
  observedGeneration : Int64
  lastTransitionTime : Int
  reason : String
  message : String
deriving DecidableEq, Repr

def findStatusCondition (conditions : List Condition) (type : String) : Option Condition :=
  conditions.find? fun c => c.type = type

/-- The conditions say of a type what the new condition says. -/
def Reports (conditions : List Condition) (new : Condition) : Prop :=
  ∃ c, findStatusCondition conditions new.type = some c ∧ c.status = new.status ∧
    c.observedGeneration = new.observedGeneration ∧ c.reason = new.reason ∧ c.message = new.message

structure MetaLibrary where
  /-- `SetControllerReference` on the references of an object; it refuses an object with another
  controller. -/
  setControllerReference : OwnerReference → List OwnerReference → Option (List OwnerReference)
  /-- `SetStatusCondition` at an instant. -/
  setStatusCondition : Condition → Int → List Condition → List Condition
  refuses : ∀ ref refs, setControllerReference ref refs = none ↔
    ∃ c, getControllerOf refs = some c ∧ referSameObject c ref = false
  controls : ∀ ref refs refs', ref.controller = some true →
    setControllerReference ref refs = some refs' → getControllerOf refs' = some ref
  settles : ∀ ref refs refs', ref.controller = some true →
    setControllerReference ref refs = some refs' → setControllerReference ref refs' = some refs'
  keepsOthers : ∀ ref refs refs', setControllerReference ref refs = some refs' →
    refs'.filter (fun r => !referSameObject r ref) = refs.filter fun r => !referSameObject r ref
  reports : ∀ new now conditions, Reports (setStatusCondition new now conditions) new
  otherTypes : ∀ new now conditions type, type ≠ new.type →
    findStatusCondition (setStatusCondition new now conditions) type =
      findStatusCondition conditions type
  reported : ∀ new now conditions, Reports conditions new →
    setStatusCondition new now conditions = conditions

theorem MetaLibrary.setStatusCondition_twice (lib : MetaLibrary) {a b : Condition}
    (h : a.type ≠ b.type) (now later : Int) (conditions : List Condition) :
    lib.setStatusCondition b later (lib.setStatusCondition a later
      (lib.setStatusCondition b now (lib.setStatusCondition a now conditions))) =
      lib.setStatusCondition b now (lib.setStatusCondition a now conditions) := by
  have ha : Reports (lib.setStatusCondition b now (lib.setStatusCondition a now conditions)) a := by
    unfold Reports
    rw [lib.otherTypes _ _ _ _ h]
    exact lib.reports a now conditions
  rw [lib.reported a later _ ha]
  exact lib.reported b later _ (lib.reports b now _)

def upsertOwnerRef (ref : OwnerReference) : List OwnerReference → List OwnerReference
  | [] => [ref]
  | r::rest => if referSameObject r ref then ref::rest else r::upsertOwnerRef ref rest

def setControllerReference (ref : OwnerReference) (refs : List OwnerReference) :
    Option (List OwnerReference) :=
  match getControllerOf refs with
  | some existing => if referSameObject existing ref then some (upsertOwnerRef ref refs) else none
  | none => some (upsertOwnerRef ref refs)

/-- A condition whose status stays keeps its transition time. -/
def setStatusCondition (new : Condition) (now : Int) : List Condition → List Condition
  | [] => [{ new with lastTransitionTime := now }]
  | c::rest =>
    if c.type = new.type then
      { new with lastTransitionTime := if c.status = new.status then c.lastTransitionTime else now }::rest
    else c::setStatusCondition new now rest

@[simp] theorem referSameObject_self (ref : OwnerReference) : referSameObject ref ref = true := by
  simp [referSameObject]

theorem setControllerReference_eq_none (ref : OwnerReference) (refs : List OwnerReference) :
    setControllerReference ref refs = none ↔
      ∃ c, getControllerOf refs = some c ∧ referSameObject c ref = false := by
  unfold setControllerReference
  cases getControllerOf refs with
  | none => simp
  | some existing => simp

theorem setControllerReference_eq_some {ref : OwnerReference} {refs refs' : List OwnerReference}
    (h : setControllerReference ref refs = some refs') : refs' = upsertOwnerRef ref refs ∧
      ∀ c, getControllerOf refs = some c → referSameObject c ref = true := by
  unfold setControllerReference at h
  cases hc : getControllerOf refs with
  | none =>
    rw [hc] at h
    cases h
    exact ⟨rfl,fun c hce => absurd hce (by simp)⟩
  | some existing =>
    simp only [hc] at h
    split at h
    · next hsame =>
      cases h
      refine ⟨rfl,?_⟩
      intro c hce
      cases hce
      exact hsame
    · cases h

theorem getControllerOf_upsert {ref : OwnerReference} (hc : ref.controller = some true)
    (refs : List OwnerReference)
    (h : ∀ c, getControllerOf refs = some c → referSameObject c ref = true) :
    getControllerOf (upsertOwnerRef ref refs) = some ref := by
  induction refs with
  | nil => simp [upsertOwnerRef,getControllerOf,hc]
  | cons r rest ih =>
    unfold upsertOwnerRef
    by_cases hsame : referSameObject r ref = true
    · simp [hsame,getControllerOf,hc]
    · have hr : r.controller ≠ some true := by
        intro hr
        exact hsame (h r (by simp [getControllerOf,hr]))
      have hrest : ∀ c, getControllerOf rest = some c → referSameObject c ref = true := by
        intro c hce
        apply h
        simpa [getControllerOf,hr] using hce
      have hih := ih hrest
      simp only [getControllerOf] at hih ⊢
      simp [hsame,hr,hih]

theorem upsertOwnerRef_twice (ref : OwnerReference) (refs : List OwnerReference) :
    upsertOwnerRef ref (upsertOwnerRef ref refs) = upsertOwnerRef ref refs := by
  induction refs with
  | nil => simp [upsertOwnerRef]
  | cons r rest ih =>
    by_cases hsame : referSameObject r ref = true
    · simp [upsertOwnerRef,hsame]
    · simp [upsertOwnerRef,hsame,ih]

theorem filter_upsertOwnerRef (ref : OwnerReference) (refs : List OwnerReference) :
    (upsertOwnerRef ref refs).filter (fun r => !referSameObject r ref) =
      refs.filter fun r => !referSameObject r ref := by
  induction refs with
  | nil => simp [upsertOwnerRef]
  | cons r rest ih =>
    by_cases hsame : referSameObject r ref = true
    · simp [upsertOwnerRef,hsame]
    · simp [upsertOwnerRef,hsame,ih]

theorem setControllerReference_settles {ref : OwnerReference} {refs refs' : List OwnerReference}
    (hc : ref.controller = some true) (h : setControllerReference ref refs = some refs') :
    setControllerReference ref refs' = some refs' := by
  obtain ⟨rfl,hsame⟩ := setControllerReference_eq_some h
  unfold setControllerReference
  rw [getControllerOf_upsert hc refs hsame]
  simp [upsertOwnerRef_twice]

theorem setStatusCondition_reports (new : Condition) (now : Int) (conditions : List Condition) :
    Reports (setStatusCondition new now conditions) new := by
  induction conditions with
  | nil => simp [Reports,setStatusCondition,findStatusCondition]
  | cons c rest ih =>
    by_cases htype : c.type = new.type
    · simp [Reports,setStatusCondition,findStatusCondition,htype]
    · simpa [Reports,setStatusCondition,findStatusCondition,htype] using ih

theorem setStatusCondition_otherTypes (new : Condition) (now : Int) (conditions : List Condition)
    (type : String) (h : type ≠ new.type) :
    findStatusCondition (setStatusCondition new now conditions) type =
      findStatusCondition conditions type := by
  induction conditions with
  | nil => simp [setStatusCondition,findStatusCondition,Ne.symm h]
  | cons c rest ih =>
    by_cases htype : c.type = new.type
    · simp [setStatusCondition,findStatusCondition,htype,Ne.symm h]
    · simp only [findStatusCondition] at ih
      simp only [setStatusCondition,findStatusCondition,htype,if_false,List.find?_cons,ih]

theorem setStatusCondition_reported (new : Condition) (now : Int) (conditions : List Condition)
    (h : Reports conditions new) : setStatusCondition new now conditions = conditions := by
  induction conditions with
  | nil =>
    obtain ⟨c,hc,_⟩ := h
    cases hc
  | cons c rest ih =>
    obtain ⟨d,hfind,hstatus,hgeneration,hreason,hmessage⟩ := h
    by_cases htype : c.type = new.type
    · simp only [findStatusCondition,htype,List.find?_cons,decide_true,Option.some.injEq] at hfind
      subst hfind
      cases c
      simp_all [setStatusCondition]
    · simp only [findStatusCondition,htype,List.find?_cons,decide_false] at hfind
      simp only [setStatusCondition,htype,if_false]
      rw [ih ⟨d,hfind,hstatus,hgeneration,hreason,hmessage⟩]

def metaLibrary : MetaLibrary where
  setControllerReference := setControllerReference
  setStatusCondition := setStatusCondition
  refuses := setControllerReference_eq_none
  controls := by
    intro ref refs refs' hc h
    obtain ⟨rfl,hsame⟩ := setControllerReference_eq_some h
    exact getControllerOf_upsert hc refs hsame
  settles := fun _ _ _ => setControllerReference_settles
  keepsOthers := by
    intro ref refs refs' h
    obtain ⟨rfl,_⟩ := setControllerReference_eq_some h
    exact filter_upsertOwnerRef ref refs
  reports := setStatusCondition_reports
  otherTypes := setStatusCondition_otherTypes
  reported := setStatusCondition_reported

end Kubernetes
