import CsmsPlatform.Controller.Deletion

/-!
# CSMS resources beside each other

Reconciles of different names work on different objects, so neither their order nor their interleaving
shows in the cluster. The selectors that they write are told apart by the instance label.
-/

namespace CsmsPlatform.Controller

open Kubernetes Program

variable {lib : MetaLibrary} {csms : CSMS} {k : Kind} {c : Cell}

/-! ## A reconcile that returns without an error -/

theorem orReturn_eq_ok {α β : Type} {context : String} {step : Client (Except Cause α)}
    {next : α → Client (Except ReconcileError β)} {value : β}
    (h : (run perform (orReturn context step next) c).1 = .ok value) :
    ∃ a c', run perform step c = (.ok a,c') ∧ (run perform (next a) c').1 = .ok value := by
  unfold orReturn at h
  rw [run_bind] at h
  cases hstep : (run perform step c).1 with
  | error cause =>
    rw [hstep] at h
    cases h
  | ok a =>
    rw [hstep] at h
    exact ⟨a,_,Prod.ext hstep rfl,h⟩

theorem free_of_createOrUpdate {write : Fields k → Fields k} {obj : Object k} {c' : Cell}
    (h : run perform (createOrUpdate lib csms k write) c = (.ok obj,c')) : c.Free csms k := by
  intro _ existing hchild hother
  rw [run_createOrUpdate_refused write hchild hother] at h
  cases h

theorem free_of_podDisruptionBudget {c' : Cell}
    (h : run perform (reconcilePodDisruptionBudget lib csms (labelsOf csms.toNamespacedName)) c =
      (.ok (),c')) : c.Free csms .podDisruptionBudget := by
  intro hwanted obj hchild hother
  obtain ⟨value,hmin⟩ := Option.ne_none_iff_exists'.mp (mt Option.map_eq_none_iff.mpr hwanted)
  have hrun : run perform (createOrUpdate lib csms .podDisruptionBudget
      (writePodDisruptionBudget csms (labelsOf csms.toNamespacedName))) c = (.error .alreadyOwned,c) :=
    run_createOrUpdate_refused _ hchild hother
  unfold reconcilePodDisruptionBudget at h
  rw [hmin] at h
  have hrefused := (run_bind perform _ _ c).symm.trans h
  rw [hrun] at hrefused
  cases hrefused

theorem free_of_ingress {c' : Cell}
    (h : run perform (reconcileIngress lib csms (labelsOf csms.toNamespacedName)) c = (.ok (),c')) :
    c.Free csms .ingress := by
  intro hwanted obj hchild hother
  obtain ⟨spec,hspec⟩ := Option.ne_none_iff_exists'.mp (mt Option.map_eq_none_iff.mpr hwanted)
  rw [run_reconcileIngress_refused lib hspec hchild hother] at h
  cases h

/-- A reconcile that returns without an error has met no child of another owner. -/
theorem free_of_reconcileCSMS {now : Int}
    (h : (run perform (reconcileCSMS lib csms (labelsOf csms.toNamespacedName) now) c).1 = .ok ())
    (k : Kind) : c.Free csms k := by
  obtain ⟨_,_,hcm,hrest⟩ := orReturn_eq_ok h
  have hfreeConfigMap : c.Free csms .configMap := free_of_createOrUpdate hcm
  cases hcm.symm.trans (run_createOrUpdate_bring lib csms rfl c hfreeConfigMap)
  obtain ⟨_,_,hsvc,hrest⟩ := orReturn_eq_ok hrest
  have hfreeService := free_of_createOrUpdate hsvc
  cases hsvc.symm.trans (run_createOrUpdate_bring lib csms rfl _ hfreeService)
  obtain ⟨_,_,hdep,hrest⟩ := orReturn_eq_ok hrest
  have hfreeDeployment := free_of_createOrUpdate hdep
  cases hdep.symm.trans (run_createOrUpdate_bring lib csms rfl _ hfreeDeployment)
  obtain ⟨_,_,hpdb,hrest⟩ := orReturn_eq_ok hrest
  have hfreeBudget := free_of_podDisruptionBudget hpdb
  cases hpdb.symm.trans (run_reconcilePodDisruptionBudget lib csms _ hfreeBudget)
  obtain ⟨_,_,hingress,_⟩ := orReturn_eq_ok hrest
  have hfreeIngress := free_of_ingress hingress
  cases k with
  | configMap => exact hfreeConfigMap
  | service => simpa [free_bring] using hfreeService
  | deployment => simpa [free_bring] using hfreeDeployment
  | podDisruptionBudget => simpa [free_bring] using hfreeBudget
  | ingress => simpa [free_bring] using hfreeIngress

theorem reconcile_ok_matches {key : NamespacedName} {now : Int} {found : CSMSResource}
    (hcsms : c.csms = some found) (hok : (run perform (reconcile lib key now) c).1 = .ok ()) (k : Kind) :
    Matches ⟨key,found⟩ k ((run perform (reconcile lib key now) c).2.child k) := by
  have hfree (k : Kind) : c.Free ⟨key,found⟩ k := by
    rw [run_reconcile_found lib key now hcsms] at hok
    exact free_of_reconcileCSMS hok k
  rw [run_reconcile lib key now hcsms hfree]
  exact brought_matches lib ⟨key,found⟩ (hfree k)

/-! ## Selectors -/

def Cell.selectors (c : Cell) : List LabelSelector :=
  ((c.child .service).map fun svc => { matchLabels := Service.selector svc.fields }).toList++
    ((c.child .deployment).bind fun deployment => Deployment.selector deployment.fields).toList++
    ((c.child .podDisruptionBudget).bind fun pdb => PodDisruptionBudget.selector pdb.fields).toList

def Cell.templateLabels (c : Cell) : Option StringMap :=
  (c.child .deployment).map fun deployment => (Deployment.template deployment.fields).labels

/-- A selector without expressions selects the labels that have all its entries. -/
def LabelSelector.Selects (selector : LabelSelector) (labels : StringMap) : Prop :=
  selector.other = [] ∧ ∀ entry ∈ selector.matchLabels, entry ∈ labels

theorem selects_labelsOf (a b : NamespacedName) :
    LabelSelector.Selects { matchLabels := labelsOf a } (labelsOf b) ↔ a.name = b.name := by
  simp [LabelSelector.Selects,labelsOf,labelInstance,labelName]

theorem matches_selectors {key : NamespacedName} {found : CSMSResource}
    (h : ∀ k, Matches ⟨key,found⟩ k (c.child k)) :
    c.selectors = List.replicate (if found.spec.minAvailable.isSome then 3 else 2)
      { matchLabels := labelsOf key } := by
  have hservice : ((c.child .service).map fun svc =>
      LabelSelector.mk (Service.selector svc.fields) []) = some ⟨labelsOf key,[]⟩ := by
    obtain ⟨svc,hchild,hfields,_⟩ := h .service
    rw [hchild]
    exact congrArg (fun fields : Service => some (LabelSelector.mk fields.selector [])) hfields
  have hdeployment : ((c.child .deployment).bind fun deployment =>
      Deployment.selector deployment.fields) = some ⟨labelsOf key,[]⟩ := by
    obtain ⟨deployment,hchild,hfields,_⟩ := h .deployment
    rw [hchild]
    exact congrArg Deployment.selector hfields
  have hpdb : ((c.child .podDisruptionBudget).bind fun pdb => PodDisruptionBudget.selector pdb.fields) =
      found.spec.minAvailable.map fun _ => ⟨labelsOf key,[]⟩ := by
    have hmatches := h .podDisruptionBudget
    unfold Matches at hmatches
    have hdesired : desired ⟨key,found⟩ .podDisruptionBudget = (found.spec.minAvailable.map fun _ =>
        writePodDisruptionBudget ⟨key,found⟩ (labelsOf key)).map fun write => write default := rfl
    cases hmin : found.spec.minAvailable with
    | none =>
      rw [hdesired,hmin] at hmatches
      rw [show c.child .podDisruptionBudget = none from hmatches]
      rfl
    | some value =>
      rw [hdesired,hmin] at hmatches
      obtain ⟨pdb,hchild,hfields,_⟩ := hmatches
      rw [hchild]
      exact congrArg PodDisruptionBudget.selector hfields
  unfold Cell.selectors
  rw [hservice,hdeployment,hpdb]
  cases found.spec.minAvailable <;> rfl

theorem matches_templateLabels {key : NamespacedName} {found : CSMSResource}
    (h : Matches ⟨key,found⟩ .deployment (c.child .deployment)) :
    c.templateLabels = some (labelsOf key) := by
  obtain ⟨deployment,hdep,hfields,_⟩ := h
  unfold Cell.templateLabels
  rw [hdep,Option.map_some,hfields]
  rfl

/-! ## Interleavings -/

section Interleaving

variable (lib) (keys : List NamespacedName) (now : NamespacedName → Int)

def reconciling (cluster : Cluster) :
    Pool { name // name ∈ keys } Request Reply (Except ReconcileError Unit) NamespacedName Cell where
  program := fun key => reconcile lib key.1 (now key.1)
  table := cluster

/-- The reconciles after they have made their calls in the turns of a schedule. -/
def interleaved (cluster : Cluster) (schedule : List { name // name ∈ keys }) :
    Pool { name // name ∈ keys } Request Reply (Except ReconcileError Unit) NamespacedName Cell :=
  (reconciling lib keys now cluster).steps Request.key perform schedule

def inOrder (order : List NamespacedName) (cluster : Cluster) : Cluster :=
  order.foldl (fun cluster name => (run onCluster (reconcile lib name (now name)) cluster).2) cluster

def eachReconciled (cluster : Cluster) : Cluster := fun name =>
  if name ∈ keys then (run perform (reconcile lib name (now name)) (cluster name)).2 else cluster name

variable {lib keys now}

theorem interleaved_table {cluster : Cluster} {schedule : List { name // name ∈ keys }}
    (hdone : ∀ key, ((interleaved lib keys now cluster schedule).program key).isDone = true) :
    (interleaved lib keys now cluster schedule).table = eachReconciled lib keys now cluster := by
  have hapart : (reconciling lib keys now cluster).Apart Request.key Subtype.val :=
    fun key => local_reconcile lib key.1 (now key.1)
  obtain ⟨hrun,hother⟩ := Pool.steps_keep perform Subtype.val_injective hapart schedule
  funext name
  unfold eachReconciled
  by_cases hmem : name ∈ keys
  · have hname := hrun ⟨name,hmem⟩
    have hfinished := hdone ⟨name,hmem⟩
    rw [if_pos hmem]
    unfold interleaved at hfinished ⊢
    generalize (reconciling lib keys now cluster).steps Request.key perform schedule = pool at *
    cases hprogram : pool.program ⟨name,hmem⟩ with
    | done result =>
      rw [hprogram] at hname
      exact congrArg Prod.snd hname
    | call request next => simp [hprogram,isDone] at hfinished
  · rw [if_neg hmem]
    exact hother name fun key heq => hmem (heq ▸ key.2)

theorem inOrder_eq {order : List NamespacedName} (horder : order.Nodup) (cluster : Cluster) :
    inOrder lib now order cluster = eachReconciled lib order now cluster := by
  induction order generalizing cluster with
  | nil =>
    funext name
    simp [inOrder,eachReconciled]
  | cons key rest ih =>
    obtain ⟨hkey,hrest⟩ := List.nodup_cons.mp horder
    have hfirst : (run onCluster (reconcile lib key (now key)) cluster).2 = Function.update cluster key
        (run perform (reconcile lib key (now key)) (cluster key)).2 :=
      congrArg Prod.snd (run_local (local_reconcile lib key (now key)) cluster)
    change inOrder lib now rest (run onCluster (reconcile lib key (now key)) cluster).2 = _
    rw [ih hrest,hfirst]
    funext name
    unfold eachReconciled
    by_cases hname : name = key
    · subst hname
      simp [hkey]
    · simp [hname]

end Interleaving

/-- Reconciles of different names come to the same cluster in every order and every interleaving, and
no selector of one CSMS selects the pods of another. -/
theorem reconciles_independent (lib : MetaLibrary) (keys : List NamespacedName) (hkeys : keys.Nodup)
    (now : NamespacedName → Int) (cluster : Cluster) : ∃ after : Cluster,
      (∀ order, order.Perm keys → inOrder lib now order cluster = after) ∧
      (∀ schedule, (∀ key, ((interleaved lib keys now cluster schedule).program key).isDone = true) →
        (interleaved lib keys now cluster schedule).table = after) ∧
      (∀ key outcomes, ∀ other ≠ key,
        (runWith serveCluster (reconcile lib key (now key)) outcomes cluster).2 other = cluster other) ∧
      ∀ a ∈ keys, ∀ b ∈ keys, a.inNamespace = b.inNamespace → ∀ found found',
        (cluster a).csms = some found → (cluster b).csms = some found' →
        (run perform (reconcile lib a (now a)) (cluster a)).1 = .ok () →
        (run perform (reconcile lib b (now b)) (cluster b)).1 = .ok () →
        (after a).selectors.length = (if found.spec.minAvailable.isSome then 3 else 2) ∧
        ∃ labels, (after b).templateLabels = some labels ∧
          ∀ selector ∈ (after a).selectors, selector.Selects labels ↔ a = b := by
  refine ⟨eachReconciled lib keys now cluster,?_,fun _ => interleaved_table,?_,?_⟩
  · intro order horder
    rw [inOrder_eq (horder.nodup_iff.mpr hkeys)]
    funext name
    simp [eachReconciled,horder.mem_iff]
  · intro key outcomes other hother
    rw [runWith_reconcile]
    exact Function.update_of_ne hother _ _
  · intro a ha b hb hnamespace found found' hfound hfound' hok hok'
    have hselectors := matches_selectors (reconcile_ok_matches hfound hok)
    have hlabels := matches_templateLabels (reconcile_ok_matches hfound' hok' .deployment)
    simp only [eachReconciled,if_pos ha,if_pos hb]
    rw [hselectors]
    refine ⟨by simp,labelsOf b,hlabels,?_⟩
    intro selector hselector
    rw [List.eq_of_mem_replicate hselector,selects_labelsOf]
    constructor
    · intro hname
      cases a
      cases b
      simp_all
    · intro heq
      rw [heq]

def twoCSMS : Cluster := fun name =>
  { csms := some { uid := name.name, generation := 1, resourceVersion := 1, status := default, spec :=
      { (default : CSMSSpec) with
        image := "csms-runtime:0.1.0"
        minAvailable := if name.name = "a" then some (.int 1) else none } } }

def twoKeys : List NamespacedName := [⟨"default","a"⟩,⟨"default","b"⟩]

def takingTurns : List { name // name ∈ twoKeys } :=
  (List.replicate 12 [⟨⟨"default","a"⟩,by decide⟩,⟨⟨"default","b"⟩,by decide⟩]).flatten

theorem reconciles_independent_two : ∃ after : Cluster,
    inOrder metaLibrary (fun _ => 100) twoKeys twoCSMS = after ∧
    inOrder metaLibrary (fun _ => 100) twoKeys.reverse twoCSMS = after ∧
    (interleaved metaLibrary twoKeys (fun _ => 100) twoCSMS takingTurns).table = after ∧
    (after ⟨"default","a"⟩).selectors.length = 3 ∧
    ∃ labels, (after ⟨"default","b"⟩).templateLabels = some labels ∧
      ∀ selector ∈ (after ⟨"default","a"⟩).selectors, ¬ selector.Selects labels := by
  obtain ⟨after,horder,hschedule,_,hselectors⟩ := reconciles_independent metaLibrary twoKeys (by decide)
    (fun _ => 100) twoCSMS
  have hall : (twoKeys.attach.all fun key => ((interleaved metaLibrary twoKeys (fun _ => 100) twoCSMS
      takingTurns).program key).isDone) = true := by decide +kernel
  have hdone := fun key => List.all_eq_true.mp hall key (List.mem_attach _ _)
  obtain ⟨hlength,labels,hlabels,hselects⟩ := hselectors ⟨"default","a"⟩ (by decide) ⟨"default","b"⟩
    (by decide) rfl _ _ rfl rfl (by decide +kernel) (by decide +kernel)
  refine ⟨after,horder _ (.refl _),horder _ (List.reverse_perm _),hschedule _ hdone,hlength,labels,hlabels,?_⟩
  intro selector hselector hmatch
  exact absurd ((hselects selector hselector).mp hmatch) (by decide)

end CsmsPlatform.Controller
