import CsmsPlatform.Controller.Reconcile

/-!
# Reconcile converges

A reconcile whose calls are all answered brings each child to a function of the CSMS and of the fields
that the reconciler does not write. The run is computed once, as a function on the objects of a name;
what the theorems say is read off that function.
-/

namespace CsmsPlatform.Controller

open Kubernetes Program

variable (lib : MetaLibrary) (csms : CSMS)

def Object.ControlledByOther {k : Kind} (obj : Object k) (csms : CSMS) : Prop :=
  ∃ ref, getControllerOf obj.ownerReferences = some ref ∧
    referSameObject ref csms.controllerRef = false

instance {k : Kind} (obj : Object k) (csms : CSMS) : Decidable (obj.ControlledByOther csms) :=
  decidable_of_iff ((getControllerOf obj.ownerReferences).any
      (fun ref => referSameObject ref csms.controllerRef = false) = true)
    (by simp [Object.ControlledByOther,Option.any_eq_true])

/-- How the fields of a child are written, for the children that the CSMS is to have. -/
def writer (csms : CSMS) : (k : Kind) → Option (Fields k → Fields k)
  | .configMap => some (writeConfigMap csms (labelsOf csms.toNamespacedName))
  | .service => some (writeService csms (labelsOf csms.toNamespacedName))
  | .deployment => some (writeDeployment csms (labelsOf csms.toNamespacedName))
  | .podDisruptionBudget => csms.spec.minAvailable.map fun _ =>
      writePodDisruptionBudget csms (labelsOf csms.toNamespacedName)
  | .ingress => csms.spec.ingress.map fun spec =>
      writeIngress csms spec (labelsOf csms.toNamespacedName)

/-- The child of a kind, if the CSMS is to have one, is not controlled by another owner. -/
def Cell.Free (cell : Cell) (csms : CSMS) (k : Kind) : Prop :=
  writer csms k ≠ none → ∀ obj, cell.child k = some obj → ¬ obj.ControlledByOther csms

def desired (csms : CSMS) (k : Kind) : Option (Fields k) := (writer csms k).map fun write => write default

/-- No field that is written depends on what was there. -/
theorem writer_forgets {k : Kind} {write : Fields k → Fields k} (h : writer csms k = some write)
    (fields : Fields k) : desired csms k = some (write fields) := by
  unfold desired
  rw [h]
  cases k with
  | configMap =>
    cases h
    rfl
  | service =>
    cases h
    rfl
  | deployment =>
    cases h
    rfl
  | podDisruptionBudget =>
    obtain ⟨_,_,rfl⟩ := Option.map_eq_some_iff.mp h
    rfl
  | ingress =>
    obtain ⟨_,_,rfl⟩ := Option.map_eq_some_iff.mp h
    rfl

/-- What is stored of a child that the reconciler has written. -/
def settle {k : Kind} (write : Fields k → Fields k) (existing : Object k) : Object k :=
  match claimObject lib csms write existing with
  | .error _ => existing
  | .ok obj => existing.replace obj

/-- What a reconcile leaves under the name of a child. -/
def brought (k : Kind) (existing : Option (Object k)) : Option (Object k) :=
  (writer csms k).map fun write => settle lib csms write (existing.getD {})

/-! ## Claiming an object -/

theorem claimObject_eq_ok {k : Kind} {write : Fields k → Fields k} {existing obj : Object k}
    (h : claimObject lib csms write existing = .ok obj) : ∃ refs,
      lib.setControllerReference csms.controllerRef existing.ownerReferences = some refs ∧
      obj = { existing with fields := write existing.fields, ownerReferences := refs } := by
  unfold claimObject at h
  cases hset : lib.setControllerReference csms.controllerRef existing.ownerReferences with
  | none => simp [hset] at h
  | some refs =>
    simp only [hset,Except.ok.injEq] at h
    exact ⟨refs,rfl,h.symm⟩

theorem claimObject_eq_error {k : Kind} {write : Fields k → Fields k} {existing : Object k}
    {cause : Cause} (h : claimObject lib csms write existing = .error cause) :
    existing.ControlledByOther csms := by
  unfold claimObject at h
  cases hset : lib.setControllerReference csms.controllerRef existing.ownerReferences with
  | none => exact (lib.refuses _ _).mp hset
  | some refs => simp [hset] at h

theorem claimObject_refused {k : Kind} (write : Fields k → Fields k) {existing : Object k}
    (h : existing.ControlledByOther csms) :
    claimObject lib csms write existing = .error .alreadyOwned := by
  unfold claimObject
  rw [(lib.refuses _ _).mpr h]

theorem not_controlledByOther_blank (k : Kind) : ¬ ({} : Object k).ControlledByOther csms := by
  rintro ⟨ref,href,_⟩
  cases href

theorem claimObject_free {k : Kind} (write : Fields k → Fields k) {existing : Object k}
    (h : ¬ existing.ControlledByOther csms) : ∃ obj, claimObject lib csms write existing = .ok obj := by
  cases hclaim : claimObject lib csms write existing with
  | error cause => exact absurd (claimObject_eq_error lib csms hclaim) h
  | ok obj => exact ⟨obj,rfl⟩

theorem replace_blank {k : Kind} {write : Fields k → Fields k} {obj : Object k}
    (h : claimObject lib csms write {} = .ok obj) :
    ({} : Object k).replace obj = { obj with status := default, resourceVersion := 1 } := by
  obtain ⟨refs,hset,rfl⟩ := claimObject_eq_ok lib csms h
  have hcontrol := lib.controls _ _ _ rfl hset
  unfold Object.replace
  rw [if_neg]
  intro heq
  have hrefs : refs = [] := congrArg Object.ownerReferences heq
  rw [hrefs] at hcontrol
  cases hcontrol

@[simp] theorem replace_self {k : Kind} (obj : Object k) : obj.replace obj = obj := by
  simp [Object.replace]

/-! ## What the server stores -/

@[simp] theorem setChild_self (cell : Cell) (k : Kind) : cell.setChild k (cell.child k) = cell := by
  simp [Cell.setChild]

@[simp] theorem child_setChild (cell : Cell) (k : Kind) (obj : Option (Object k)) :
    (cell.setChild k obj).child k = obj := by
  simp [Cell.setChild]

@[simp] theorem child_setChild_ne (cell : Cell) {j k : Kind} (h : j ≠ k) (obj : Option (Object k)) :
    (cell.setChild k obj).child j = cell.child j := by
  simp [Cell.setChild,h]

@[simp] theorem csms_setChild (cell : Cell) (k : Kind) (obj : Option (Object k)) :
    (cell.setChild k obj).csms = cell.csms := rfl

theorem run_getCSMS (key : NamespacedName) {cell : Cell} {found : CSMSResource}
    (h : cell.csms = some found) : run perform (getCSMS key) cell = (.ok found,cell) := by
  change perform ⟨key,.getCSMS⟩ cell = _
  simp only [perform,h]
  rfl

theorem run_getObject_absent (key : NamespacedName) {k : Kind} {cell : Cell} (h : cell.child k = none) :
    run perform (getObject key k) cell = (.error .notFound,cell) := by
  change perform ⟨key,.get k⟩ cell = _
  simp only [perform,h]
  rfl

theorem run_getObject (key : NamespacedName) {k : Kind} {cell : Cell} {obj : Object k}
    (h : cell.child k = some obj) : run perform (getObject key k) cell = (.ok obj,cell) := by
  change perform ⟨key,.get k⟩ cell = _
  simp only [perform,h]
  rfl

theorem run_createObject (key : NamespacedName) {k : Kind} {cell : Cell} (obj : Object k)
    (h : cell.child k = none) : run perform (createObject key obj) cell =
      (.ok { obj with status := default, resourceVersion := 1 },
        cell.setChild k (some { obj with status := default, resourceVersion := 1 })) := by
  change perform ⟨key,.create k obj⟩ cell = _
  simp only [perform,h]
  rfl

theorem run_updateObject (key : NamespacedName) {k : Kind} {cell : Cell} {current obj : Object k}
    (h : cell.child k = some current) (hversion : obj.resourceVersion = current.resourceVersion) :
    run perform (updateObject key obj) cell =
      (.ok (current.replace obj),cell.setChild k (some (current.replace obj))) := by
  change perform ⟨key,.update k obj⟩ cell = _
  simp only [perform,h,hversion,if_true]
  rfl

theorem run_statusUpdate (key : NamespacedName) {cell : Cell} {current csms : CSMSResource}
    (h : cell.csms = some current) (hversion : csms.resourceVersion = current.resourceVersion) :
    run perform (statusUpdate key csms) cell = (.ok (current.writeStatus csms.status),
      { cell with csms := some (current.writeStatus csms.status) }) := by
  change perform ⟨key,.updateStatus csms⟩ cell = _
  simp only [perform,h,hversion,if_true]
  rfl

theorem run_createOrUpdate (k : Kind) (write : Fields k → Fields k) (cell : Cell)
    (h : ∀ obj, cell.child k = some obj → ¬ obj.ControlledByOther csms) :
    run perform (createOrUpdate lib csms k write) cell =
      (.ok (settle lib csms write ((cell.child k).getD {})),
        cell.setChild k (some (settle lib csms write ((cell.child k).getD {})))) := by
  unfold createOrUpdate settle
  rw [run_bind]
  cases hchild : cell.child k with
  | none =>
    obtain ⟨obj,hclaim⟩ := claimObject_free lib csms write (not_controlledByOther_blank csms k)
    simp only [run_getObject_absent _ hchild,hclaim,run_bind,run_createObject _ obj hchild,
      Option.getD_none,replace_blank lib csms hclaim,pure_eq,run_done,Except.mapError]
  | some existing =>
    obtain ⟨obj,hclaim⟩ := claimObject_free lib csms write (h existing hchild)
    simp only [run_getObject _ hchild,hclaim,Option.getD_some]
    by_cases heq : existing = obj
    · simp only [heq,if_true,pure_eq,run_done,replace_self]
      rw [← heq,← hchild,setChild_self]
    · have hversion : obj.resourceVersion = existing.resourceVersion := by
        obtain ⟨refs,_,rfl⟩ := claimObject_eq_ok lib csms hclaim
        rfl
      simp only [heq,if_false,run_bind,run_updateObject _ hchild hversion,pure_eq,run_done,
        Except.mapError]

theorem run_deleteIgnoringNotFound (k : Kind) (cell : Cell) :
    run perform (deleteIgnoringNotFound csms k) cell = (.ok (),cell.setChild k none) := by
  unfold deleteIgnoringNotFound
  rw [run_bind]
  cases hchild : cell.child k with
  | none =>
    have hdelete : run perform (deleteObject csms.toNamespacedName k) cell =
        (.error .notFound,cell) := by
      change perform ⟨_,.delete k⟩ cell = _
      simp only [perform,hchild]
      rfl
    simp only [hdelete,ignoreNotFound,pure_eq,run_done]
    rw [← hchild,setChild_self]
  | some obj =>
    have hdelete : run perform (deleteObject csms.toNamespacedName k) cell =
        (.ok (),cell.setChild k none) := by
      change perform ⟨_,.delete k⟩ cell = _
      simp only [perform,hchild]
      rfl
    simp only [hdelete,ignoreNotFound,pure_eq,run_done]

/-! ## The whole run -/

def Cell.bring (cell : Cell) (k : Kind) : Cell := cell.setChild k (brought lib csms k (cell.child k))

def Cell.reconciled (cell : Cell) (now : Int) : Cell where
  csms := some (csms.writeStatus
    (observedStatus lib csms ((cell.child .deployment).getD {}).deploymentStatus now))
  child := fun k => brought lib csms k (cell.child k)

theorem settle_spec {k : Kind} (write : Fields k → Fields k) {existing : Object k}
    (h : ¬ existing.ControlledByOther csms) : ∃ refs,
      lib.setControllerReference csms.controllerRef existing.ownerReferences = some refs ∧
      (settle lib csms write existing).fields = write existing.fields ∧
      (settle lib csms write existing).ownerReferences = refs ∧
      (settle lib csms write existing).status = existing.status ∧
      (settle lib csms write existing).other = existing.other := by
  obtain ⟨obj,hclaim⟩ := claimObject_free lib csms write h
  obtain ⟨refs,hset,hobj⟩ := claimObject_eq_ok lib csms hclaim
  refine ⟨refs,hset,?_⟩
  simp only [settle,hclaim,Object.replace]
  split
  · next heq =>
    rw [hobj] at heq
    have hfields := congrArg Object.fields heq
    have hrefs := congrArg Object.ownerReferences heq
    exact ⟨hfields.symm,hrefs.symm,rfl,rfl⟩
  · rw [hobj]
    exact ⟨rfl,rfl,rfl,rfl⟩

theorem settle_status {k : Kind} (write : Fields k → Fields k) {existing : Object k}
    (h : ¬ existing.ControlledByOther csms) :
    (settle lib csms write existing).status = existing.status := by
  obtain ⟨_,_,_,_,hstatus,_⟩ := settle_spec lib csms write h
  exact hstatus

theorem settle_settle {k : Kind} {write : Fields k → Fields k} (hwrite : writer csms k = some write)
    {existing : Object k} (h : ¬ existing.ControlledByOther csms) :
    settle lib csms write (settle lib csms write existing) = settle lib csms write existing := by
  obtain ⟨refs,hset,hfields,hrefs,_,_⟩ := settle_spec lib csms write h
  generalize settle lib csms write existing = new at *
  have hagain : write new.fields = new.fields := by
    have hsame := (writer_forgets csms hwrite new.fields).symm.trans
      (writer_forgets csms hwrite existing.fields)
    rw [hfields]
    rw [hfields] at hsame
    exact Option.some.inj hsame
  have hsettled : lib.setControllerReference csms.controllerRef new.ownerReferences =
      some new.ownerReferences := by
    rw [hrefs]
    exact lib.settles _ _ _ rfl hset
  unfold settle claimObject
  simp only [hsettled,hagain,replace_self]

theorem Cell.Free.getD {cell : Cell} {csms : CSMS} {k : Kind} (h : cell.Free csms k)
    {write : Fields k → Fields k} (hwrite : writer csms k = some write) :
    ¬ ((cell.child k).getD {}).ControlledByOther csms := by
  cases hchild : cell.child k with
  | none => exact not_controlledByOther_blank csms k
  | some obj => exact h (by simp [hwrite]) obj hchild

theorem brought_brought {cell : Cell} {k : Kind} (h : cell.Free csms k) :
    brought lib csms k (brought lib csms k (cell.child k)) = brought lib csms k (cell.child k) := by
  unfold brought
  cases hwrite : writer csms k with
  | none => rfl
  | some write =>
    simp only [Option.map_some,Option.getD_some,settle_settle lib csms hwrite (h.getD hwrite)]

theorem run_orReturn {α β : Type} (context : String) {step : Client (Except Cause α)}
    {next : α → Client (Except ReconcileError β)} {cell cell' : Cell} {value : α}
    (h : run perform step cell = (.ok value,cell')) :
    run perform (orReturn context step next) cell = run perform (next value) cell' := by
  unfold orReturn
  rw [run_bind,h]

theorem run_createOrUpdate_bring {k : Kind} {write : Fields k → Fields k}
    (hwrite : writer csms k = some write) (cell : Cell)
    (h : cell.Free csms k) :
    run perform (createOrUpdate lib csms k write) cell =
      (.ok (settle lib csms write ((cell.child k).getD {})),cell.bring lib csms k) := by
  rw [run_createOrUpdate lib csms k write cell (h (by simp [hwrite]))]
  simp only [Cell.bring,brought,hwrite,Option.map_some]

theorem run_deleteIgnoringNotFound_bring {k : Kind} (hwrite : writer csms k = none) (cell : Cell) :
    run perform (deleteIgnoringNotFound csms k) cell = (.ok (),cell.bring lib csms k) := by
  rw [run_deleteIgnoringNotFound]
  simp only [Cell.bring,brought,hwrite,Option.map_none]

theorem run_reconcilePodDisruptionBudget (cell : Cell)
    (h : cell.Free csms .podDisruptionBudget) :
    run perform (reconcilePodDisruptionBudget lib csms (labelsOf csms.toNamespacedName)) cell =
      (.ok (),cell.bring lib csms .podDisruptionBudget) := by
  have hwriter : writer csms .podDisruptionBudget = csms.spec.minAvailable.map fun _ =>
      writePodDisruptionBudget csms (labelsOf csms.toNamespacedName) := rfl
  unfold reconcilePodDisruptionBudget
  cases hmin : csms.spec.minAvailable with
  | none =>
    rw [hmin] at hwriter
    exact run_deleteIgnoringNotFound_bring lib csms hwriter cell
  | some _ =>
    rw [hmin] at hwriter
    have hrun := run_createOrUpdate_bring lib csms hwriter cell h
    exact (run_bind _ _ _ _).trans (by rw [hrun]; rfl)

theorem run_reconcileIngress (cell : Cell)
    (h : cell.Free csms .ingress) :
    run perform (reconcileIngress lib csms (labelsOf csms.toNamespacedName)) cell =
      (.ok (),cell.bring lib csms .ingress) := by
  have hwriter : writer csms .ingress = csms.spec.ingress.map fun spec =>
      writeIngress csms spec (labelsOf csms.toNamespacedName) := rfl
  unfold reconcileIngress
  cases hspec : csms.spec.ingress with
  | none =>
    rw [hspec] at hwriter
    exact run_deleteIgnoringNotFound_bring lib csms hwriter cell
  | some spec =>
    rw [hspec] at hwriter
    have hrun := run_createOrUpdate_bring lib csms hwriter cell h
    exact (run_bind _ _ _ _).trans (by rw [hrun]; rfl)

@[simp] theorem child_bring (cell : Cell) (k : Kind) :
    (cell.bring lib csms k).child k = brought lib csms k (cell.child k) := by
  simp [Cell.bring]

@[simp] theorem child_bring_ne (cell : Cell) {j k : Kind} (h : j ≠ k) :
    (cell.bring lib csms k).child j = cell.child j := by
  simp [Cell.bring,h]

@[simp] theorem csms_bring (cell : Cell) (k : Kind) : (cell.bring lib csms k).csms = cell.csms := rfl

theorem free_bring (cell : Cell) {j k : Kind} (h : j ≠ k) :
    (cell.bring lib csms k).Free csms j ↔ cell.Free csms j := by
  simp [Cell.Free,h]

def settledDeployment (cell : Cell) : Object .deployment :=
  settle lib csms (writeDeployment csms (labelsOf csms.toNamespacedName))
    ((cell.child .deployment).getD {})

def Cell.bringFixed (cell : Cell) : Cell :=
  ((cell.bring lib csms .configMap).bring lib csms .service).bring lib csms .deployment

theorem run_reconcileCSMS (cell : Cell) (now : Int) (hconfigMap : cell.Free csms .configMap)
    (hservice : cell.Free csms .service) (hdeployment : cell.Free csms .deployment) :
    run perform (reconcileCSMS lib csms (labelsOf csms.toNamespacedName) now) cell =
      run perform (reconcileOptional lib csms (labelsOf csms.toNamespacedName)
        (settledDeployment lib csms cell) now) (cell.bringFixed lib csms) := by
  have hcm : run perform (reconcileConfigMap lib csms (labelsOf csms.toNamespacedName)) cell = _ :=
    run_createOrUpdate_bring lib csms rfl cell hconfigMap
  have hsvc : run perform (reconcileService lib csms (labelsOf csms.toNamespacedName)) _ = _ :=
    run_createOrUpdate_bring lib csms rfl (cell.bring lib csms .configMap)
      ((free_bring lib csms cell (by decide)).mpr hservice)
  have hdep : run perform (reconcileDeployment lib csms (labelsOf csms.toNamespacedName)) _ = _ :=
    run_createOrUpdate_bring lib csms rfl ((cell.bring lib csms .configMap).bring lib csms .service)
      (by simpa [free_bring] using hdeployment)
  unfold reconcileCSMS
  rw [run_orReturn _ hcm,run_orReturn _ hsvc,run_orReturn _ hdep]
  simp [settledDeployment,Cell.bringFixed]

theorem run_updateStatus (cell : Cell) (deployment : Object .deployment) (now : Int)
    (h : cell.csms = some csms.toCSMSResource) :
    run perform (updateStatus lib csms deployment now) cell =
      (.ok (csms.writeStatus (observedStatus lib csms deployment.deploymentStatus now)),
        { cell with csms := some (csms.writeStatus
          (observedStatus lib csms deployment.deploymentStatus now)) }) := by
  have hversion (status : CSMSStatus) : (csms.withStatus status).resourceVersion =
    csms.resourceVersion := rfl
  unfold updateStatus
  rw [run_bind,run_statusUpdate _ h (hversion _)]
  rfl

theorem run_reconcileOptional (cell : Cell) (deployment : Object .deployment) (now : Int)
    (hcsms : cell.csms = some csms.toCSMSResource)
    (hpdb : cell.Free csms .podDisruptionBudget) (hingress : cell.Free csms .ingress) :
    run perform (reconcileOptional lib csms (labelsOf csms.toNamespacedName) deployment now) cell =
      (.ok (),{ (cell.bring lib csms .podDisruptionBudget).bring lib csms .ingress with
        csms := some (csms.writeStatus (observedStatus lib csms deployment.deploymentStatus now)) }) := by
  unfold reconcileOptional
  rw [run_orReturn _ (run_reconcilePodDisruptionBudget lib csms cell hpdb),
    run_orReturn _ (run_reconcileIngress lib csms _ (by simpa [free_bring] using hingress)),
    run_orReturn _ (run_updateStatus lib csms _ deployment now (by simpa using hcsms))]
  rfl

theorem run_reconcile_found (key : NamespacedName) (now : Int) {cell : Cell} {found : CSMSResource}
    (hcsms : cell.csms = some found) :
    run perform (reconcile lib key now) cell =
      run perform (reconcileCSMS lib ⟨key,found⟩ (labelsOf key) now) cell := by
  unfold reconcile
  rw [run_bind,run_getCSMS key hcsms]

theorem run_reconcile (key : NamespacedName) (now : Int) {cell : Cell} {found : CSMSResource}
    (hcsms : cell.csms = some found) (h : ∀ k, cell.Free ⟨key,found⟩ k) :
    run perform (reconcile lib key now) cell = (.ok (),cell.reconciled lib ⟨key,found⟩ now) := by
  have hstatus : (settledDeployment lib ⟨key,found⟩ cell).deploymentStatus =
      ((cell.child .deployment).getD {}).deploymentStatus :=
    settle_status lib _ _ ((h .deployment).getD rfl)
  have hfixed := run_reconcileCSMS lib ⟨key,found⟩ cell now (h _) (h _) (h _)
  have hrest := run_reconcileOptional lib ⟨key,found⟩ (cell.bringFixed lib ⟨key,found⟩)
    (settledDeployment lib ⟨key,found⟩ cell) now (by simpa [Cell.bringFixed] using hcsms)
    (by simpa [Cell.bringFixed,free_bring] using h .podDisruptionBudget)
    (by simpa [Cell.bringFixed,free_bring] using h .ingress)
  rw [run_reconcile_found lib key now hcsms,hfixed,hrest,hstatus]
  refine Prod.ext rfl (Cell.ext rfl (funext fun k => ?_))
  cases k <;> simp [Cell.bringFixed,Cell.reconciled]

/-! ## What the run comes to -/

/-- A child is what the CSMS asks for: absent, or with the fields it asks for and controlled by it. -/
def Matches (csms : CSMS) (k : Kind) (child : Option (Object k)) : Prop :=
  match desired csms k with
  | none => child = none
  | some fields => ∃ obj, child = some obj ∧ obj.fields = fields ∧
      getControllerOf obj.ownerReferences = some csms.controllerRef

theorem brought_matches {cell : Cell} {k : Kind} (h : cell.Free csms k) :
    Matches csms k (brought lib csms k (cell.child k)) := by
  unfold Matches brought
  cases hwrite : writer csms k with
  | none => simp [desired,hwrite]
  | some write =>
    obtain ⟨refs,hset,hfields,hrefs,_,_⟩ := settle_spec lib csms write (h.getD hwrite)
    rw [writer_forgets csms hwrite ((cell.child k).getD {}).fields]
    refine ⟨_,rfl,hfields,?_⟩
    rw [hrefs]
    exact lib.controls _ _ _ rfl hset

theorem Matches.free {csms : CSMS} {cell : Cell} {k : Kind} (h : Matches csms k (cell.child k)) :
    cell.Free csms k := by
  intro _ obj hobj hother
  unfold Matches at h
  cases hdesired : desired csms k with
  | none => simp [hdesired,hobj] at h
  | some fields =>
    simp only [hdesired] at h
    obtain ⟨_,hchild,_,hcontrol⟩ := h
    cases hobj.symm.trans hchild
    obtain ⟨ref,href,hsame⟩ := hother
    cases hcontrol.symm.trans href
    simp at hsame

/-- Of what the reconciler does not write, nothing changes. -/
theorem brought_keeps {cell : Cell} {k : Kind} (h : cell.Free csms k) {old new : Object k}
    (hold : cell.child k = some old) (hnew : brought lib csms k (cell.child k) = some new) :
    new.other = old.other ∧ new.status = old.status ∧
      new.ownerReferences.filter (fun ref => !referSameObject ref csms.controllerRef) =
        old.ownerReferences.filter fun ref => !referSameObject ref csms.controllerRef := by
  obtain ⟨write,hwrite,rfl⟩ := Option.map_eq_some_iff.mp hnew
  rw [hold,Option.getD_some]
  obtain ⟨refs,hset,_,hrefs,hstatus,hother⟩ := settle_spec lib csms write
    (h (by simp [hwrite]) old hold)
  refine ⟨hother,hstatus,?_⟩
  rw [hrefs]
  exact lib.keepsOthers _ _ _ hset

section Again

variable (key : NamespacedName) (found : CSMSResource) (status : CSMSStatus)

theorem brought_writeStatus (k : Kind) (existing : Option (Object k)) :
    brought lib ⟨key,found.writeStatus status⟩ k existing = brought lib ⟨key,found⟩ k existing := by
  unfold CSMSResource.writeStatus
  split
  · rfl
  · cases k <;> rfl

theorem free_writeStatus (cell : Cell) (k : Kind) :
    cell.Free ⟨key,found.writeStatus status⟩ k ↔ cell.Free ⟨key,found⟩ k := by
  unfold CSMSResource.writeStatus
  split
  · rfl
  · cases k <;> rfl

theorem writeStatus_writeStatus :
    (found.writeStatus status).writeStatus status = found.writeStatus status := by
  unfold CSMSResource.writeStatus
  by_cases h : status = found.status
  · simp [h]
  · simp [h]

theorem observedStatus_writeStatus (deployment : DeploymentStatus) (now later : Int) :
    observedStatus lib
      ⟨key,found.writeStatus (observedStatus lib ⟨key,found⟩ deployment now)⟩ deployment later =
      observedStatus lib ⟨key,found⟩ deployment now := by
  have hconditions := lib.setStatusCondition_twice
    (a := availableCondition ⟨key,found⟩ deployment) (b := progressingCondition ⟨key,found⟩ deployment)
    (show csmsConditionAvailable ≠ csmsConditionProgressing by decide) now later
    found.status.conditions
  have hsame (status : CSMSStatus) : observedStatus lib ⟨key,found.writeStatus status⟩ deployment later =
      observedStatus lib ⟨key,found.withStatus status⟩ deployment later := by
    unfold CSMSResource.writeStatus
    split
    · next h => rw [h]; rfl
    · rfl
  rw [hsame]
  exact congrArg (CSMSStatus.mk deployment.replicas deployment.readyReplicas found.generation) hconditions

end Again

/-- Once reconciled, the objects of the name stay as they are. -/
theorem reconciled_reconciled {key : NamespacedName} {cell : Cell} {found : CSMSResource}
    (h : ∀ k, cell.Free ⟨key,found⟩ k) (now later : Int) :
    let status := observedStatus lib ⟨key,found⟩ ((cell.child .deployment).getD {}).deploymentStatus now
    (cell.reconciled lib ⟨key,found⟩ now).reconciled lib ⟨key,found.writeStatus status⟩ later =
      cell.reconciled lib ⟨key,found⟩ now := by
  intro status
  have hstatus : (((cell.reconciled lib ⟨key,found⟩ now).child .deployment).getD {}).deploymentStatus =
      ((cell.child .deployment).getD {}).deploymentStatus :=
    settle_status lib _ _ ((h .deployment).getD rfl)
  refine Cell.ext ?_ (funext fun k => ?_)
  · change some (CSMSResource.writeStatus _ (observedStatus lib _ _ later)) = some _
    rw [hstatus,observedStatus_writeStatus,writeStatus_writeStatus]
  · change brought lib _ k (brought lib _ k (cell.child k)) = brought lib _ k (cell.child k)
    rw [brought_writeStatus,brought_brought lib _ (h k)]

/-! ## The cluster -/

section Local

variable (k : Kind)

theorem local_send (key : NamespacedName) (verb : Verb) : Local Request.key key (send key verb) :=
  only_ask rfl

theorem local_createOrUpdate (write : Fields k → Fields k) :
    Local Request.key csms.toNamespacedName (createOrUpdate lib csms k write) := by
  unfold createOrUpdate
  refine Only.bind (local_send _ _) fun reply => ?_
  split
  · split
    · trivial
    · exact Only.bind (local_send _ _) fun _ => trivial
  · trivial
  · split
    · trivial
    · split
      · trivial
      · exact Only.bind (local_send _ _) fun _ => trivial

theorem local_deleteIgnoringNotFound :
    Local Request.key csms.toNamespacedName (deleteIgnoringNotFound csms k) :=
  Only.bind (local_send _ _) fun _ => trivial

theorem local_orReturn {α β : Type} {key : NamespacedName} {context : String}
    {step : Client (Except Cause α)} {next : α → Client (Except ReconcileError β)}
    (hstep : Local Request.key key step) (hnext : ∀ value, Local Request.key key (next value)) :
    Local Request.key key (orReturn context step next) := by
  unfold orReturn
  refine Only.bind hstep fun result => ?_
  cases result with
  | error cause => trivial
  | ok value => exact hnext value

/-- Every call of a reconcile is about the objects of its own name. -/
theorem local_reconcile (key : NamespacedName) (now : Int) :
    Local Request.key key (reconcile lib key now) := by
  unfold reconcile
  refine Only.bind (local_send _ _) fun reply => ?_
  split
  · trivial
  · trivial
  · next found =>
    refine local_orReturn (local_createOrUpdate lib ⟨key,found⟩ _ _) fun _ => ?_
    refine local_orReturn (local_createOrUpdate lib ⟨key,found⟩ _ _) fun _ => ?_
    refine local_orReturn (local_createOrUpdate lib ⟨key,found⟩ _ _) fun deployment => ?_
    refine local_orReturn ?_ fun _ => ?_
    · unfold reconcilePodDisruptionBudget
      split
      · exact local_deleteIgnoringNotFound ⟨key,found⟩ _
      · exact Only.bind (local_createOrUpdate lib ⟨key,found⟩ _ _) fun _ => trivial
    refine local_orReturn ?_ fun _ => ?_
    · unfold reconcileIngress
      split
      · exact local_deleteIgnoringNotFound ⟨key,found⟩ _
      · exact Only.bind (local_createOrUpdate lib ⟨key,found⟩ _ _) fun _ => trivial
    exact local_orReturn (Only.bind (local_send _ _) fun _ => trivial) fun _ => trivial

end Local

/-- The request of a call names the key whose objects it concerns. -/
abbrev onCluster (request : Request) (cluster : Cluster) : Reply request × Cluster :=
  onCell Request.key perform request cluster

/-- One reconcile that meets no failing call and no child of another controller brings every child
in line with the spec, touches nothing else, and a further reconcile changes nothing. -/
theorem reconcile_converges (lib : MetaLibrary) (key : NamespacedName) (now : Int) (cluster : Cluster)
    (found : CSMSResource) (hcsms : (cluster key).csms = some found)
    (hfree : ∀ k obj, (cluster key).child k = some obj → ¬ obj.ControlledByOther ⟨key,found⟩) :
    ∃ after : Cluster, run onCluster (reconcile lib key now) cluster = (.ok (),after) ∧
      (∀ k, Matches ⟨key,found⟩ k ((after key).child k)) ∧
      (((after key).child .podDisruptionBudget).isSome ↔ found.spec.minAvailable.isSome) ∧
      (((after key).child .ingress).isSome ↔ found.spec.ingress.isSome) ∧
      (∀ k old new, (cluster key).child k = some old → (after key).child k = some new →
        new.other = old.other ∧ new.status = old.status ∧
        new.ownerReferences.filter (fun ref => !referSameObject ref (CSMS.controllerRef ⟨key,found⟩)) =
          old.ownerReferences.filter
            fun ref => !referSameObject ref (CSMS.controllerRef ⟨key,found⟩)) ∧
      (∃ written, (after key).csms = some written ∧ written.uid = found.uid ∧
        written.generation = found.generation ∧ written.spec = found.spec) ∧
      (∀ other, other ≠ key → after other = cluster other) ∧
      ∀ later, run onCluster (reconcile lib key later) after = (.ok (),after) := by
  have hrun : ∀ instant (table : Cluster), run onCluster (reconcile lib key instant) table =
      ((run perform (reconcile lib key instant) (table key)).1,
        Function.update table key (run perform (reconcile lib key instant) (table key)).2) :=
    fun instant table => run_local (local_reconcile lib key instant) table
  have hopen (k : Kind) : (cluster key).Free ⟨key,found⟩ k := fun _ => hfree k
  have hfirst := run_reconcile lib key now hcsms hopen
  have hmatches (k : Kind) := brought_matches lib ⟨key,found⟩ (hopen k)
  refine ⟨Function.update cluster key ((cluster key).reconciled lib ⟨key,found⟩ now),?_,?_,?_,?_,?_,?_,?_,?_⟩
  · rw [hrun,hfirst]
  · intro k
    simpa [Cell.reconciled] using hmatches k
  · have hwanted : (writer ⟨key,found⟩ .podDisruptionBudget).isSome = found.spec.minAvailable.isSome :=
      Option.isSome_map
    simp [Cell.reconciled,brought,hwanted]
  · have hwanted : (writer ⟨key,found⟩ .ingress).isSome = found.spec.ingress.isSome :=
      Option.isSome_map
    simp [Cell.reconciled,brought,hwanted]
  · intro k old new hold hnew
    simp only [Function.update_self] at hnew
    exact brought_keeps lib ⟨key,found⟩ (hopen k) hold hnew
  · refine ⟨found.writeStatus _,by rw [Function.update_self]; rfl,?_⟩
    unfold CSMSResource.writeStatus
    split <;> exact ⟨rfl,rfl,rfl⟩
  · intro other hother
    simp [hother]
  · intro later
    have hagain : run perform (reconcile lib key later)
        ((cluster key).reconciled lib ⟨key,found⟩ now) = _ :=
      run_reconcile lib key later rfl fun k => (free_writeStatus key found _ _ k).mpr (hmatches k).free
    rw [hrun,Function.update_self,hagain,reconciled_reconciled lib hopen,Function.update_idem]

def driftedCSMS : CSMSResource where
  uid := "7f"
  generation := 3
  resourceVersion := 9
  spec := { (default : CSMSSpec) with image := "csms-runtime:0.1.0", minAvailable := some (.int 1) }
  status := default

/-- A cluster after some manual changes: the ConfigMap has other entries and an owner of its own, and
there is an Ingress from an earlier spec. -/
def driftedCluster : Cluster := fun _ =>
  { csms := some driftedCSMS
    child := fun k => match k with
      | .configMap => some
          { fields := (⟨[],[("LOG_LEVEL","debug")]⟩ : ConfigMap)
            ownerReferences := [⟨"v1","Node","n1","2a",none,none⟩] }
      | .ingress => some { ownerReferences := [CSMS.controllerRef ⟨⟨"default","csms"⟩,driftedCSMS⟩] }
      | _ => none }

theorem reconcile_converges_drifted : ∃ after,
    run onCluster (reconcile metaLibrary ⟨"default","csms"⟩ 100) driftedCluster = (.ok (),after) ∧
    (∀ k, Matches ⟨⟨"default","csms"⟩,driftedCSMS⟩ k ((after ⟨"default","csms"⟩).child k)) ∧
    ∀ later, run onCluster (reconcile metaLibrary ⟨"default","csms"⟩ later) after = (.ok (),after) := by
  have hfree : ∀ k obj, (driftedCluster ⟨"default","csms"⟩).child k = some obj →
      ¬ obj.ControlledByOther ⟨⟨"default","csms"⟩,driftedCSMS⟩ := by
    intro k obj hobj
    cases k with
    | configMap =>
      cases hobj
      decide
    | service => cases hobj
    | deployment => cases hobj
    | podDisruptionBudget => cases hobj
    | ingress =>
      cases hobj
      decide
  obtain ⟨after,hrun,hmatches,_,_,_,_,_,hagain⟩ := reconcile_converges metaLibrary
    ⟨"default","csms"⟩ 100 driftedCluster driftedCSMS rfl hfree
  exact ⟨after,hrun,hmatches,hagain⟩

end CsmsPlatform.Controller
