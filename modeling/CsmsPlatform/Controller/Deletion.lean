import CsmsPlatform.Controller.Stages

/-!
# What a reconcile deletes

The PodDisruptionBudget and the Ingress are deleted when the spec has none. The deletion goes by name
and does not look at the owner, so what it spares depends on what stands under the name, and on whether
an earlier child stops the reconcile.
-/

namespace CsmsPlatform.Controller

open Kubernetes Program

variable (lib : MetaLibrary) (csms : CSMS) {k : Kind}

/-- An object that the CSMS does not control is not deleted, and is left as it was when the CSMS is not
to have one of its kind. -/
def Spared (k : Kind) (before after : Option (Object k)) : Prop :=
  ∀ obj, before = some obj → ¬ obj.IsControlledBy csms →
    after ≠ none ∧ (desired csms k = none → after = some obj)

def earlier : Kind → List Kind
  | .configMap => []
  | .service => [.configMap]
  | .deployment => [.service,.configMap]
  | .podDisruptionBudget => [.deployment,.service,.configMap]
  | .ingress => [.podDisruptionBudget,.deployment,.service,.configMap]

/-- No child of an earlier stage stops the reconcile before it comes to the kind. -/
def Reaches (cell : Cell) (k : Kind) : Prop := ∀ j ∈ earlier k, cell.Free csms j

/-- Where a reconcile of `cell` stands with the stages `ks` behind it. -/
structure Passed (cell : Cell) (ks : List Kind) (c : Cell) : Prop where
  spared : ∀ k, Spared csms k (cell.child k) (c.child k)
  untouched : ∀ k, k ∉ ks → c.child k = cell.child k
  free : ∀ k ∈ ks, cell.Free csms k

abbrev Alone (_ _ : Cell) : Prop := False

variable {lib csms} {cell c : Cell} {ks : List Kind}

theorem desired_eq_none : desired csms k = none ↔ writer csms k = none := by
  simp [desired]

theorem spared_refl (child : Option (Object k)) : Spared csms k child child := by
  intro obj hobj _
  exact ⟨by simp [hobj],fun _ => hobj⟩

theorem Passed.setChild (h : Passed csms cell ks c) {child : Option (Object k)}
    (hspared : Spared csms k (cell.child k) child) (hfree : cell.Free csms k) :
    Passed csms cell (k::ks) (c.setChild k child) := by
  refine ⟨?_,?_,?_⟩
  · intro j
    by_cases hj : j = k
    · subst hj
      rw [child_setChild]
      exact hspared
    · rw [child_setChild_ne _ hj]
      exact h.spared j
  · intro j hj
    rw [List.mem_cons,not_or] at hj
    rw [child_setChild_ne _ hj.1]
    exact h.untouched j hj.2
  · intro j hj
    rcases List.mem_cons.mp hj with rfl | hj
    · exact hfree
    · exact h.free j hj

theorem free_of_claimObject {write : Fields k → Fields k} {obj : Object k}
    (h : claimObject lib csms write ((cell.child k).getD {}) = .ok obj) : cell.Free csms k := by
  intro _ existing hchild hother
  rw [hchild,Option.getD_some,claimObject_refused lib csms write hother] at h
  cases h

theorem Passed.createOrUpdate (h : Passed csms cell ks c) (hk : k ∉ ks) {write : Fields k → Fields k}
    (hwrite : writer csms k = some write) :
    Safe serve Alone (fun _ => True)
      (fun result c => (∀ k, Spared csms k (cell.child k) (c.child k)) ∧
        ∀ obj, result = .ok obj → Passed csms cell (k::ks) c)
      (createOrUpdate lib csms k write) c := by
  have hchild := h.untouched k hk
  have hstored (stored : Object k) (hfree : cell.Free csms k) :
      Passed csms cell (k::ks) (c.setChild k (some stored)) := by
    refine h.setChild ?_ hfree
    intro obj _ _
    refine ⟨by simp,fun hnone => ?_⟩
    rw [desired_eq_none,hwrite] at hnone
    cases hnone
  refine safe_createOrUpdate (P := fun c' => c' = c) lib csms rfl (fun _ _ _ => False.elim)
    (fun _ _ => trivial) ?_ ?_ ?_
  · rintro _ cause rfl
    exact ⟨h.spared,by simp⟩
  · rintro _ obj rfl hobj hclaim
    refine ⟨h.spared,fun _ _ => ?_⟩
    have hread : claimObject lib csms write ((cell.child k).getD {}) = .ok obj := by
      rw [← hchild,hobj]
      exact hclaim
    have hset := hstored obj (free_of_claimObject hread)
    rwa [← hobj,setChild_self] at hset
  · rintro _ read obj current stored rfl ⟨_,rfl,hread⟩ hclaim _ _
    have hset := hstored stored (free_of_claimObject (by rw [← hchild,hread]; exact hclaim))
    exact ⟨trivial,⟨hset.spared,fun _ _ => hset⟩,fun _ => ⟨hset.spared,by simp⟩⟩

theorem Passed.delete (h : Passed csms cell ks c) (hwrite : writer csms k = none)
    (hown : ∀ obj, cell.child k = some obj → obj.IsControlledBy csms) :
    Safe serve Alone (fun _ => True)
      (fun result c => (∀ k, Spared csms k (cell.child k) (c.child k)) ∧
        (result = .ok () → Passed csms cell (k::ks) c))
      (deleteIgnoringNotFound csms k) c := by
  have hset : Passed csms cell (k::ks) (c.setChild k none) := by
    refine h.setChild ?_ fun hwanted => absurd hwrite hwanted
    intro obj hobj hforeign
    exact absurd (hown obj hobj) hforeign
  refine safe_deleteIgnoringNotFound (P := fun c' => c' = c) csms rfl (fun _ _ _ => False.elim)
    (fun _ _ => trivial) ?_ ?_
  · rintro _ cause rfl
    exact ⟨h.spared,by simp⟩
  · rintro _ result rfl
    exact ⟨trivial,hset.spared,fun _ => hset⟩

section Whole

variable (lib) (hcond : ∀ k, desired csms k = none → Reaches csms cell k →
  ∀ obj, cell.child k = some obj → obj.IsControlledBy csms)

include hcond

theorem Passed.podDisruptionBudget (h : Passed csms cell (earlier .podDisruptionBudget) c) :
    Safe serve Alone (fun _ => True)
      (fun result c => (∀ k, Spared csms k (cell.child k) (c.child k)) ∧
        (result = .ok () → Passed csms cell (earlier .ingress) c))
      (reconcilePodDisruptionBudget lib csms (labelsOf csms.toNamespacedName)) c := by
  have hwriter : writer csms .podDisruptionBudget = csms.spec.minAvailable.map fun _ =>
      writePodDisruptionBudget csms (labelsOf csms.toNamespacedName) := rfl
  unfold reconcilePodDisruptionBudget
  split
  · next hmin =>
    rw [hmin] at hwriter
    exact h.delete hwriter (hcond _ (desired_eq_none.mpr hwriter) h.free)
  · next value hmin =>
    rw [hmin] at hwriter
    refine Safe.bind (h.createOrUpdate (by decide) hwriter) ?_
    rintro result c ⟨hspared,hc⟩
    refine ⟨hspared,fun hok => ?_⟩
    cases result with
    | error cause => cases hok
    | ok obj => exact hc obj rfl

theorem Passed.ingress (h : Passed csms cell (earlier .ingress) c) :
    Safe serve Alone (fun _ => True)
      (fun _ c => ∀ k, Spared csms k (cell.child k) (c.child k))
      (reconcileIngress lib csms (labelsOf csms.toNamespacedName)) c := by
  have hwriter : writer csms .ingress = csms.spec.ingress.map fun spec =>
      writeIngress csms spec (labelsOf csms.toNamespacedName) := rfl
  unfold reconcileIngress
  split
  · next hspec =>
    rw [hspec] at hwriter
    refine (h.delete hwriter (hcond _ (desired_eq_none.mpr hwriter) h.free)).mono ?_
    exact fun _ _ hc => hc.1
  · next spec hspec =>
    rw [hspec] at hwriter
    refine Safe.bind (h.createOrUpdate (by decide) hwriter) ?_
    rintro result c ⟨hspared,_⟩
    exact hspared

theorem reconcileCSMS_spares (now : Int) :
    Safe serve Alone (fun _ => True) (fun _ c => ∀ k, Spared csms k (cell.child k) (c.child k))
      (reconcileCSMS lib csms (labelsOf csms.toNamespacedName) now) cell := by
  have hstart : Passed csms cell (earlier .configMap) cell :=
    ⟨fun _ => spared_refl _,fun _ _ => rfl,fun _ hk => absurd hk List.not_mem_nil⟩
  refine safe_orReturn (hstart.createOrUpdate (by decide) rfl) (fun _ _ h => h.1) ?_
  intro c obj hc
  refine safe_orReturn ((hc.2 obj rfl).createOrUpdate (by decide) rfl) (fun _ _ h => h.1) ?_
  intro c obj hc
  refine safe_orReturn ((hc.2 obj rfl).createOrUpdate (by decide) rfl) (fun _ _ h => h.1) ?_
  intro c deployment hc
  refine safe_orReturn ((hc.2 deployment rfl).podDisruptionBudget lib hcond) (fun _ _ h => h.1) ?_
  intro c _ hc
  refine safe_orReturn ((hc.2 rfl).ingress lib hcond) (fun _ _ h => h) ?_
  intro c _ hc
  have hstatus : Safe serve Alone (fun _ => True)
      (fun _ c => ∀ k, Spared csms k (cell.child k) (c.child k))
      (updateStatus lib csms deployment now) c := by
    refine Safe.bind (safe_statusUpdate (P := fun c' => c' = c)
      (Q := fun _ c => ∀ k, Spared csms k (cell.child k) (c.child k)) rfl (fun _ _ _ => False.elim)
      (fun _ _ => trivial) ?_ ?_) fun _ _ h => h
    · rintro _ err rfl
      exact hc
    · rintro _ current rfl _ _
      exact ⟨trivial,hc,hc⟩
  exact safe_orReturn hstatus (fun _ _ h => h) fun _ _ h => h

end Whole

/-! ## A run in which every call is answered -/

theorem run_createOrUpdate_refused (write : Fields k → Fields k) {obj : Object k}
    (hchild : c.child k = some obj) (hother : obj.ControlledByOther csms) :
    run perform (createOrUpdate lib csms k write) c = (.error .alreadyOwned,c) := by
  unfold createOrUpdate
  rw [run_bind,run_getObject _ hchild]
  simp only [claimObject_refused lib csms write hother,pure_eq,run_done]

theorem run_reconcileIngress_refused (lib : MetaLibrary) {spec : CSMSIngress}
    (hspec : csms.spec.ingress = some spec) {obj : Object .ingress}
    (hchild : c.child .ingress = some obj) (hother : obj.ControlledByOther csms) :
    run perform (reconcileIngress lib csms (labelsOf csms.toNamespacedName)) c =
      (.error .alreadyOwned,c) := by
  have hrun : run perform (createOrUpdate lib csms .ingress
      (writeIngress csms spec (labelsOf csms.toNamespacedName))) c = (.error .alreadyOwned,c) :=
    run_createOrUpdate_refused _ hchild hother
  unfold reconcileIngress
  rw [hspec]
  exact (run_bind _ _ _ _).trans (by rw [hrun]; rfl)

theorem child_reconcileOptional (lib : MetaLibrary) (deployment : Object .deployment) (now : Int)
    (hcsms : c.csms = some csms.toCSMSResource) (hmin : csms.spec.minAvailable = none) :
    (run perform (reconcileOptional lib csms (labelsOf csms.toNamespacedName) deployment now) c).2.child
      .podDisruptionBudget = none := by
  have hwriter : writer csms .podDisruptionBudget = none := Option.map_eq_none_iff.mpr hmin
  have hbrought : (c.bring lib csms .podDisruptionBudget).child .podDisruptionBudget = none := by
    simp [brought,hwriter]
  have hpdbFree : c.Free csms .podDisruptionBudget := fun hwanted => absurd hwriter hwanted
  by_cases hfree : c.Free csms .ingress
  · rw [run_reconcileOptional lib csms c deployment now hcsms hpdbFree hfree]
    simpa using hbrought
  · simp only [Cell.Free,Classical.not_imp,not_forall,not_not] at hfree
    obtain ⟨hwanted,obj,hchild,hother⟩ := hfree
    obtain ⟨spec,hspec⟩ := Option.ne_none_iff_exists'.mp (mt Option.map_eq_none_iff.mpr hwanted)
    have hpdb := run_reconcilePodDisruptionBudget lib csms c hpdbFree
    have hingress := run_reconcileIngress_refused (c := c.bring lib csms .podDisruptionBudget) lib hspec
      (by simpa using hchild) hother
    unfold reconcileOptional
    rw [run_orReturn _ hpdb]
    unfold orReturn
    rw [run_bind,hingress]
    exact hbrought

def optionalKinds : List Kind := [.podDisruptionBudget,.ingress]

/-- With every call answered, a reconcile that comes to an optional child that the CSMS is not to have
deletes it. -/
theorem reconcile_deletes (lib : MetaLibrary) (now : Int) (hcsms : cell.csms = some csms.toCSMSResource)
    (hk : k ∈ optionalKinds) (hdesired : desired csms k = none) (hreaches : Reaches csms cell k) :
    (run perform (reconcileCSMS lib csms (labelsOf csms.toNamespacedName) now) cell).2.child k = none := by
  have hwriter := desired_eq_none.mp hdesired
  have hread : (cell.bringFixed lib csms).csms = some csms.toCSMSResource := hcsms
  rcases List.mem_cons.mp hk with rfl | hk
  · rw [run_reconcileCSMS lib csms cell now (hreaches _ (by decide)) (hreaches _ (by decide))
      (hreaches _ (by decide))]
    exact child_reconcileOptional lib _ now hread (Option.map_eq_none_iff.mp hwriter)
  · cases List.mem_singleton.mp hk
    have hpdb := hreaches .podDisruptionBudget (by decide)
    rw [run_reconcileCSMS lib csms cell now (hreaches _ (by decide)) (hreaches _ (by decide))
      (hreaches _ (by decide)),run_reconcileOptional lib csms _ _ now hread
      (by simpa [Cell.bringFixed,free_bring] using hpdb) fun hwanted => absurd hwriter hwanted]
    simp [brought,hwriter]

/-! ## Every outcome -/

abbrev serveCluster (request : Request) (outcome : Outcome) (cluster : Cluster) :
    Reply request × Cluster :=
  onCell Request.key (fun request => serve request outcome) request cluster

theorem runWith_reconcile (lib : MetaLibrary) (key : NamespacedName) (now : Int)
    (outcomes : Nat → Outcome) (cluster : Cluster) :
    runWith serveCluster (reconcile lib key now) outcomes cluster =
      ((runWith serve (reconcile lib key now) outcomes (cluster key)).1,
        Function.update cluster key (runWith serve (reconcile lib key now) outcomes (cluster key)).2) :=
  runWith_local (local_reconcile lib key now) outcomes cluster

theorem reconcile_spares (lib : MetaLibrary) (key : NamespacedName) (now : Int) {found : CSMSResource}
    (hcsms : cell.csms = some found)
    (hcond : ∀ k ∈ optionalKinds, desired ⟨key,found⟩ k = none → Reaches ⟨key,found⟩ cell k →
      ∀ obj, cell.child k = some obj → obj.IsControlledBy ⟨key,found⟩)
    (outcomes : Nat → Outcome) (k : Kind) : Spared ⟨key,found⟩ k (cell.child k)
      ((runWith serve (reconcile lib key now) outcomes cell).2.child k) := by
  have hall : ∀ k, desired ⟨key,found⟩ k = none → Reaches ⟨key,found⟩ cell k →
      ∀ obj, cell.child k = some obj → obj.IsControlledBy ⟨key,found⟩ := by
    intro k hdesired
    cases k with
    | configMap => cases hdesired
    | service => cases hdesired
    | deployment => cases hdesired
    | podDisruptionBudget => exact hcond _ (by decide) hdesired
    | ingress => exact hcond _ (by decide) hdesired
  have hread : Safe serve Alone (fun _ => True)
      (fun reply c => c = cell ∧ ∀ csms, reply = .ok csms → c.csms = some csms) (getCSMS key) cell :=
    safe_getCSMS rfl (fun _ _ _ => False.elim) fun _ _ => trivial
  have hsafe : Safe serve Alone (fun _ => True)
      (fun _ c => ∀ k, Spared ⟨key,found⟩ k (cell.child k) (c.child k)) (reconcile lib key now) cell := by
    refine Safe.bind hread ?_
    rintro reply _ ⟨rfl,hreply⟩
    split
    · exact fun _ => spared_refl _
    · exact fun _ => spared_refl _
    · next csms =>
      cases hcsms.symm.trans (hreply csms rfl)
      exact reconcileCSMS_spares lib hall now
  exact hsafe.runWith outcomes k

/-- `Reconcile` deletes an optional child by its name alone: it spares what the CSMS does not control
just if nothing of that sort is there when it comes to delete. -/
theorem reconcile_spares_iff (lib : MetaLibrary) (key : NamespacedName) (now : Int) (cluster : Cluster)
    (found : CSMSResource) (hcsms : (cluster key).csms = some found) :
    (∀ outcomes : Nat → Outcome, ∀ name, ∀ k ∈ optionalKinds,
      Spared ⟨key,found⟩ k ((cluster name).child k)
        (((runWith serveCluster (reconcile lib key now) outcomes cluster).2 name).child k)) ↔
    ∀ k ∈ optionalKinds, desired ⟨key,found⟩ k = none → Reaches ⟨key,found⟩ (cluster key) k →
      ∀ obj, (cluster key).child k = some obj → obj.IsControlledBy ⟨key,found⟩ := by
  constructor
  · intro h k hk hdesired hreaches obj hobj
    by_contra hforeign
    have hspared := h (fun _ => .answered) key k hk
    rw [runWith_reconcile,runWith_const] at hspared
    simp only [Function.update_self] at hspared
    refine (hspared obj hobj hforeign).1 ?_
    change (run perform (reconcile lib key now) (cluster key)).2.child k = none
    rw [run_reconcile_found lib key now hcsms]
    exact reconcile_deletes lib now hcsms hk hdesired hreaches
  · intro hcond outcomes name k _
    rw [runWith_reconcile]
    by_cases hname : name = key
    · subst hname
      simp only [Function.update_self]
      exact reconcile_spares lib name now hcsms hcond outcomes k
    · simp only [Function.update_of_ne hname]
      exact spared_refl _

theorem reconcile_spares_drifted : (driftedCluster ⟨"default","csms"⟩).csms = some driftedCSMS ∧
    ∀ outcomes : Nat → Outcome, ∀ name, ∀ k ∈ optionalKinds,
      Spared ⟨⟨"default","csms"⟩,driftedCSMS⟩ k ((driftedCluster name).child k)
        (((runWith serveCluster (reconcile metaLibrary ⟨"default","csms"⟩ 100) outcomes
          driftedCluster).2 name).child k) := by
  refine ⟨rfl,(reconcile_spares_iff metaLibrary ⟨"default","csms"⟩ 100 driftedCluster driftedCSMS
    rfl).mpr ?_⟩
  intro k hk hdesired _ obj hobj
  rcases List.mem_cons.mp hk with rfl | hk
  · cases hobj
  · cases List.mem_singleton.mp hk
    cases hobj
    decide

/-- Somebody else's Ingress stands under the name of a CSMS that has none. -/
def foreignIngress : Cluster := fun _ =>
  { csms := some { uid := "7f", generation := 1, resourceVersion := 1, status := default, spec :=
      { (default : CSMSSpec) with image := "csms-runtime:0.1.0" } }
    child := fun k => match k with
      | .ingress => some { fields := { (default : Ingress) with rules := [⟨"shop.example",none⟩] } }
      | _ => none }

theorem reconcile_deletesForeign :
    let key : NamespacedName := ⟨"default","csms"⟩
    let after := runWith serveCluster (reconcile metaLibrary key 100) (fun _ => .answered) foreignIngress
    ((foreignIngress key).child .ingress).any
      (fun obj => getControllerOf obj.ownerReferences = none) = true ∧
    after.1 = .ok () ∧ (after.2 key).child .ingress = none := by
  decide +kernel

end CsmsPlatform.Controller
