import CsmsPlatform.Controller.Stages

/-!
# The observed generation

One reconcile at a time runs beside edits of the spec and changes of the Deployment's status, and any of
its calls may fail or lose its answer. It writes the status with the resource version it read, after the
children, so a generation that is reported as observed is one that the children are in line with.
-/

namespace CsmsPlatform.Controller

open Kubernetes Program

inductive Elsewhere : Cell → Cell → Prop where
  | created (c : Cell) (uid : String) (spec : CSMSSpec) : c.csms = none →
      Elsewhere c { c with csms := some ⟨uid,1,1,spec,default⟩ }
  | edited (c : Cell) (csms : CSMSResource) (spec : CSMSSpec) (generation : Int64) :
      c.csms = some csms → csms.generation < generation →
      Elsewhere c { c with csms := some { csms with
        spec := spec, generation := generation, resourceVersion := csms.resourceVersion+1 } }
  | deploymentChanged (c : Cell) (deployment : Object .deployment) (status : DeploymentStatus) :
      c.child .deployment = some deployment →
      Elsewhere c (c.setChild .deployment (some { deployment with
        status := status, resourceVersion := deployment.resourceVersion+1 }))

/-- A generation that is reported as observed is one that the children are in line with. -/
def Honest (key : NamespacedName) (c : Cell) : Prop :=
  ∀ csms, c.csms = some csms → csms.status.observedGeneration ≤ csms.generation ∧
    (csms.status.observedGeneration = csms.generation → ∀ k, Matches ⟨key,csms⟩ k (c.child k))

/-- A reconcile that has read `csms` and brought the children `done` in line with it. Since then the
CSMS is as it was, or it has been edited. -/
structure Underway (key : NamespacedName) (csms : CSMSResource) (done : Kind → Prop) (c : Cell) :
    Prop where
  honest : Honest key c
  observed : csms.status.observedGeneration ≤ csms.generation
  current : ∃ now, c.csms = some now ∧ (now = csms ∨ (csms.generation < now.generation ∧
    csms.resourceVersion < now.resourceVersion ∧ now.status = csms.status))
  settled : ∀ k, done k → Matches ⟨key,csms⟩ k (c.child k)

variable {key : NamespacedName} {csms : CSMSResource} {done : Kind → Prop} {c c' : Cell} {k : Kind}

theorem Matches.of_eq {csms : CSMS} {old new : Object k} (h : Matches csms k (some old))
    (hfields : new.fields = old.fields) (hrefs : new.ownerReferences = old.ownerReferences) :
    Matches csms k (some new) := by
  unfold Matches at h ⊢
  cases hdesired : desired csms k with
  | none => simp [hdesired] at h
  | some fields =>
    simp only [hdesired] at h ⊢
    obtain ⟨_,hold,hf,hcontrol⟩ := h
    cases hold
    exact ⟨new,rfl,hfields.trans hf,by rw [hrefs]; exact hcontrol⟩

theorem Elsewhere.keeps_matches {csms : CSMS} (h : Elsewhere c c') (hk : Matches csms k (c.child k)) :
    Matches csms k (c'.child k) := by
  cases h with
  | created uid spec hnone => exact hk
  | edited csms spec generation hcsms hlt => exact hk
  | deploymentChanged deployment status hchild =>
    by_cases hkind : k = .deployment
    · subst hkind
      rw [hchild] at hk
      rw [child_setChild]
      exact hk.of_eq rfl rfl
    · rw [child_setChild_ne _ hkind]
      exact hk

theorem Honest.elsewhere (h : Honest key c) (hstep : Elsewhere c c') : Honest key c' := by
  have hmatches (csms : CSMS) (k : Kind) (hk : Matches csms k (c.child k)) :
    Matches csms k (c'.child k) := hstep.keeps_matches hk
  cases hstep with
  | created uid spec hnone =>
    intro csms hcsms
    cases hcsms
    exact ⟨show (0 : Int64) ≤ 1 by decide,fun heq => absurd heq (show (0 : Int64) ≠ 1 by decide)⟩
  | edited old spec generation hold hlt =>
    intro csms hcsms
    cases hcsms
    have hle := (h old hold).1
    have hraised := Int64.lt_of_le_of_lt hle hlt
    refine ⟨Int64.le_of_lt hraised,fun heq => ?_⟩
    rw [show old.status.observedGeneration = generation from heq] at hraised
    exact (Int64.lt_irrefl hraised).elim
  | deploymentChanged deployment status hchild =>
    intro csms hcsms
    obtain ⟨hle,hall⟩ := h csms hcsms
    exact ⟨hle,fun heq k => hmatches _ k (hall heq k)⟩

theorem Underway.elsewhere (h : Underway key csms done c) (hstep : Elsewhere c c') :
    Underway key csms done c' := by
  refine ⟨h.honest.elsewhere hstep,h.observed,?_,fun k hk => hstep.keeps_matches (h.settled k hk)⟩
  obtain ⟨now,hnow,hcurrent⟩ := h.current
  cases hstep with
  | created uid spec hnone => simp [hnone] at hnow
  | edited old spec generation hold hlt =>
    cases hold.symm.trans hnow
    refine ⟨_,rfl,.inr ?_⟩
    rcases hcurrent with rfl | ⟨hgeneration,hversion,hstatus⟩
    · exact ⟨hlt,Nat.lt_succ_self _,rfl⟩
    · exact ⟨Int64.lt_trans hgeneration hlt,Nat.lt_succ_of_lt hversion,hstatus⟩
  | deploymentChanged deployment status hchild => exact ⟨now,hnow,hcurrent⟩

/-- A child brought in line with the CSMS that was read leaves the report honest: if the report is for
the current generation, that is the CSMS that was read. -/
theorem Underway.setChild (h : Underway key csms done c) {child : Option (Object k)}
    (hchild : Matches ⟨key,csms⟩ k child) :
    Underway key csms (fun j => done j ∨ j = k) (c.setChild k child) := by
  have hset (csms' : CSMS) (hk : Matches csms' k child) (j : Kind)
      (hj : j ≠ k → Matches csms' j (c.child j)) : Matches csms' j ((c.setChild k child).child j) := by
    by_cases hkind : j = k
    · subst hkind
      rw [child_setChild]
      exact hk
    · rw [child_setChild_ne _ hkind]
      exact hj hkind
  obtain ⟨now,hnow,hcurrent⟩ := h.current
  refine ⟨?_,h.observed,⟨now,hnow,hcurrent⟩,?_⟩
  · intro csms' hcsms'
    obtain ⟨hle,hall⟩ := h.honest csms' hcsms'
    refine ⟨hle,fun heq j => ?_⟩
    cases hnow.symm.trans hcsms'
    rcases hcurrent with rfl | ⟨hgeneration,_,hstatus⟩
    · exact hset _ hchild j fun _ => hall heq j
    · rw [← heq,hstatus] at hgeneration
      exact (Int64.lt_irrefl (Int64.lt_of_lt_of_le hgeneration h.observed)).elim
  · intro j hj
    refine hset _ hchild j fun hne => ?_
    exact h.settled j (hj.resolve_right hne)

/-! ## A reconcile among edits -/

variable {lib : MetaLibrary}

theorem claimed_matches {csms : CSMS} {write : Fields k → Fields k} {read obj stored : Object k}
    (hwrite : writer csms k = some write) (hclaim : claimObject lib csms write read = .ok obj)
    (hfields : stored.fields = obj.fields) (hrefs : stored.ownerReferences = obj.ownerReferences) :
    Matches csms k (some stored) := by
  obtain ⟨refs,hset,rfl⟩ := claimObject_eq_ok lib csms hclaim
  unfold Matches
  rw [writer_forgets csms hwrite read.fields]
  refine ⟨stored,rfl,hfields,?_⟩
  rw [hrefs]
  exact lib.controls _ _ _ rfl hset

theorem Underway.createOrUpdate (h : Underway key csms done c) {write : Fields k → Fields k}
    (hwrite : writer ⟨key,csms⟩ k = some write) :
    Safe serve Elsewhere (Honest key)
      (fun result c => ∀ obj, result = .ok obj → Underway key csms (fun j => done j ∨ j = k) c)
      (createOrUpdate lib ⟨key,csms⟩ k write) c := by
  refine safe_createOrUpdate lib _ h (fun _ _ h hstep => h.elsewhere hstep) (fun _ h => h.honest)
    (fun _ _ _ => by simp) ?_ ?_
  · intro c obj hc hchild hclaim _ _
    have hset := hc.setChild (claimed_matches hwrite hclaim rfl rfl)
    rwa [← hchild,setChild_self] at hset
  · intro c read obj current stored hc _ hclaim _ hstored
    have hmatches : Matches ⟨key,csms⟩ k (some stored) :=
      claimed_matches hwrite hclaim (by simp [hstored]) (by simp [hstored])
    have hset := hc.setChild hmatches
    exact ⟨hset.honest,fun _ _ => hset,by simp⟩

theorem Underway.delete (h : Underway key csms done c) (hwrite : writer ⟨key,csms⟩ k = none) :
    Safe serve Elsewhere (Honest key)
      (fun result c => result = .ok () → Underway key csms (fun j => done j ∨ j = k) c)
      (deleteIgnoringNotFound ⟨key,csms⟩ k) c := by
  refine safe_deleteIgnoringNotFound _ h (fun _ _ h hstep => h.elsewhere hstep) (fun _ h => h.honest)
    (fun _ _ _ => by simp) ?_
  intro c result hc
  have hset : Underway key csms (fun j => done j ∨ j = k) (c.setChild k none) := by
    refine hc.setChild ?_
    unfold Matches desired
    rw [hwrite]
    rfl
  exact ⟨hset.honest,fun _ => hset⟩

theorem matches_writeStatus (status : CSMSStatus) (child : Option (Object k)) :
    Matches ⟨key,csms.writeStatus status⟩ k child ↔ Matches ⟨key,csms⟩ k child := by
  unfold CSMSResource.writeStatus
  split
  · rfl
  · cases k <;> rfl

theorem Underway.updateStatus (h : Underway key csms done c) (hdone : ∀ k, done k)
    (deployment : Object .deployment) (now : Int) :
    Safe serve Elsewhere (Honest key) (fun _ _ => True)
      (updateStatus lib ⟨key,csms⟩ deployment now) c := by
  refine Safe.bind (safe_statusUpdate (Q := fun _ _ => True) h (fun _ _ h hstep => h.elsewhere hstep)
    (fun _ h => h.honest) (fun _ _ _ => trivial) ?_) fun _ _ _ => trivial
  intro c current hc hcurrent hversion
  refine ⟨?_,trivial,trivial⟩
  obtain ⟨_,hnow,hlater⟩ := hc.current
  cases hnow.symm.trans hcurrent
  have hsame : current = csms := by
    rcases hlater with hsame | ⟨_,hlt,_⟩
    · exact hsame
    · exact absurd hversion (Nat.ne_of_lt hlt)
  subst hsame
  intro written hwritten
  cases hwritten
  refine ⟨?_,fun _ k => (matches_writeStatus _ _).mpr (hc.settled k (hdone k))⟩
  unfold CSMSResource.writeStatus
  split
  · exact hc.observed
  · exact Int64.le_refl _

theorem Underway.podDisruptionBudget (h : Underway key csms done c) :
    Safe serve Elsewhere (Honest key)
      (fun result c => result = .ok () →
        Underway key csms (fun j => done j ∨ j = .podDisruptionBudget) c)
      (reconcilePodDisruptionBudget lib ⟨key,csms⟩ (labelsOf key)) c := by
  have hwriter : writer ⟨key,csms⟩ .podDisruptionBudget = csms.spec.minAvailable.map fun _ =>
      writePodDisruptionBudget ⟨key,csms⟩ (labelsOf key) := rfl
  unfold reconcilePodDisruptionBudget
  split
  · next hmin =>
    rw [show csms.spec.minAvailable = none from hmin] at hwriter
    exact h.delete hwriter
  · next value hmin =>
    rw [show csms.spec.minAvailable = some value from hmin] at hwriter
    refine Safe.bind (h.createOrUpdate hwriter) ?_
    intro result c hc hok
    cases result with
    | error cause => cases hok
    | ok obj => exact hc obj rfl

theorem Underway.ingress (h : Underway key csms done c) :
    Safe serve Elsewhere (Honest key)
      (fun result c => result = .ok () → Underway key csms (fun j => done j ∨ j = .ingress) c)
      (reconcileIngress lib ⟨key,csms⟩ (labelsOf key)) c := by
  have hwriter : writer ⟨key,csms⟩ .ingress = csms.spec.ingress.map fun spec =>
      writeIngress ⟨key,csms⟩ spec (labelsOf key) := rfl
  unfold reconcileIngress
  split
  · next hspec =>
    rw [show csms.spec.ingress = none from hspec] at hwriter
    exact h.delete hwriter
  · next spec hspec =>
    rw [show csms.spec.ingress = some spec from hspec] at hwriter
    refine Safe.bind (h.createOrUpdate hwriter) ?_
    intro result c hc hok
    cases result with
    | error cause => cases hok
    | ok obj => exact hc obj rfl

/-- Whatever happens to a reconcile and beside it, the report stays honest after each of its calls. -/
theorem reconcile_honest (h : Honest key c) (now : Int) :
    Safe serve Elsewhere (Honest key) (fun _ _ => True) (reconcile lib key now) c := by
  refine Safe.bind (safe_getCSMS h (fun _ _ h hstep => h.elsewhere hstep) fun _ h => h) ?_
  rintro reply c ⟨hc,hfound⟩
  split
  · trivial
  · trivial
  · next csms =>
    have hread := hfound csms rfl
    have hstart : Underway key csms (fun _ => False) c :=
      ⟨hc,(hc csms hread).1,⟨csms,hread,.inl rfl⟩,fun _ hk => hk.elim⟩
    refine safe_orReturn (hstart.createOrUpdate (k := .configMap) rfl) (fun _ _ _ => trivial) ?_
    intro c obj hc
    refine safe_orReturn ((hc obj rfl).createOrUpdate (k := .service) rfl) (fun _ _ _ => trivial) ?_
    intro c obj hc
    refine safe_orReturn ((hc obj rfl).createOrUpdate (k := .deployment) rfl) (fun _ _ _ => trivial) ?_
    intro c deployment hc
    refine safe_orReturn (hc deployment rfl).podDisruptionBudget (fun _ _ _ => trivial) ?_
    intro c _ hc
    refine safe_orReturn (hc rfl).ingress (fun _ _ _ => trivial) ?_
    intro c _ hc
    refine safe_orReturn ((hc rfl).updateStatus ?_ deployment now) (fun _ _ _ => trivial)
      fun _ _ _ => trivial
    intro k
    cases k <;> simp

/-! ## Runs -/

/-- The objects of a name, and the reconcile that is under way. -/
structure Operator where
  cell : Cell
  running : Option (Client (Except ReconcileError Unit)) := none

inductive Action where
  | reconcile (now : Int)
  | call (outcome : Outcome)
  | abort
  | create (uid : String) (spec : CSMSSpec)
  | edit (spec : CSMSSpec) (generation : Int64)
  | changeDeployment (status : DeploymentStatus)

def Operator.act (lib : MetaLibrary) (key : NamespacedName) (op : Operator) : Action → Operator
  | .reconcile now =>
    match op.running with
    | some (.call _ _) => op
    | some (.done _) | none => { op with running := some (Controller.reconcile lib key now) }
  | .call outcome =>
    match op.running with
    | some (.call request next) =>
      { cell := (serve request outcome op.cell).2
        running := some (next (serve request outcome op.cell).1) }
    | some (.done _) | none => op
  | .abort => { op with running := none }
  | .create uid spec =>
    match op.cell.csms with
    | none => { op with cell := { op.cell with csms := some ⟨uid,1,1,spec,default⟩ } }
    | some _ => op
  | .edit spec generation =>
    match op.cell.csms with
    | none => op
    | some csms =>
      if csms.generation < generation then
        { op with cell := { op.cell with csms := some { csms with
            spec := spec, generation := generation, resourceVersion := csms.resourceVersion+1 } } }
      else op
  | .changeDeployment status =>
    match op.cell.child .deployment with
    | none => op
    | some deployment => { op with cell := op.cell.setChild .deployment (some { deployment with
        status := status, resourceVersion := deployment.resourceVersion+1 }) }

def Operator.run (lib : MetaLibrary) (key : NamespacedName) (op : Operator) (actions : List Action) :
    Operator :=
  actions.foldl (Operator.act lib key) op

def Operator.start (child : (k : Kind) → Option (Object k)) : Operator where
  cell := { csms := none, child := child }

structure Operator.Inv (key : NamespacedName) (op : Operator) : Prop where
  honest : Honest key op.cell
  safe : ∀ program, op.running = some program →
    Safe serve Elsewhere (Honest key) (fun _ _ => True) program op.cell

theorem Operator.Inv.elsewhere {op : Operator} (h : op.Inv key) (hstep : Elsewhere op.cell c) :
    ({ op with cell := c } : Operator).Inv key := by
  refine ⟨h.honest.elsewhere hstep,?_⟩
  intro program hprogram
  cases program with
  | done result => trivial
  | call request next => exact (h.safe _ hprogram).env hstep

theorem Operator.Inv.begin {op : Operator} (h : op.Inv key) (now : Int) :
    ({ op with running := some (Controller.reconcile lib key now) } : Operator).Inv key := by
  refine ⟨h.honest,?_⟩
  intro program hprogram
  cases hprogram
  exact reconcile_honest h.honest now

theorem Operator.Inv.act {op : Operator} (h : op.Inv key) (action : Action) :
    (op.act lib key action).Inv key := by
  cases action with
  | reconcile now =>
    simp only [Operator.act]
    split
    · exact h
    · exact h.begin now
    · exact h.begin now
  | call outcome =>
    simp only [Operator.act]
    split
    · next request next hrunning =>
      obtain ⟨hhonest,hnext⟩ := h.safe _ hrunning _ .refl outcome
      refine ⟨hhonest,?_⟩
      intro program hprogram
      cases hprogram
      exact hnext
    · exact h
    · exact h
  | abort => exact ⟨h.honest,fun _ hprogram => by cases hprogram⟩
  | create uid spec =>
    simp only [Operator.act]
    split
    · next hnone => exact h.elsewhere (.created _ uid spec hnone)
    · exact h
  | edit spec generation =>
    simp only [Operator.act]
    split
    · exact h
    · next csms hcsms =>
      split
      · next hlt => exact h.elsewhere (.edited _ csms spec generation hcsms hlt)
      · exact h
  | changeDeployment status =>
    simp only [Operator.act]
    split
    · exact h
    · next deployment hchild => exact h.elsewhere (.deploymentChanged _ deployment status hchild)

theorem Operator.Inv.run {op : Operator} (h : op.Inv key) (actions : List Action) :
    (op.run lib key actions).Inv key := by
  induction actions generalizing op with
  | nil => exact h
  | cons action rest ih => exact ih (h.act action)

theorem Operator.inv_start (child : (k : Kind) → Option (Object k)) :
    (Operator.start child).Inv key := by
  refine ⟨?_,?_⟩
  · intro csms hcsms
    cases hcsms
  · intro program hprogram
    cases hprogram

/-- In every run of edits, changes of the Deployment and one reconcile at a time, any call of which may
fail or lose its answer, a generation that is reported as observed is one that every child is in line
with. -/
theorem observedGeneration_matches (lib : MetaLibrary) (key : NamespacedName)
    (child : (k : Kind) → Option (Object k)) (actions : List Action) (csms : CSMSResource) :
    let cell := ((Operator.start child).run lib key actions).cell
    cell.csms = some csms → csms.status.observedGeneration = csms.generation →
      ∀ k, Matches ⟨key,csms⟩ k (cell.child k) := by
  intro cell hcsms heq
  exact (((Operator.inv_start child).run actions).honest csms hcsms).2 heq

/-- The spec is edited under the first reconcile, whose report is refused then. A call of the second one
fails, and the third one gets through. -/
def editedRun : List Action :=
  .create "7f" { (default : CSMSSpec) with image := "csms-runtime:0.1.0" }::.reconcile 100::
    List.replicate 5 (.call .answered) ++
  .edit { (default : CSMSSpec) with image := "csms-runtime:0.2.0" } 2::List.replicate 5 (.call .answered) ++
  .reconcile 200::List.replicate 3 (.call .answered) ++
  .call .failed::.reconcile 300::List.replicate 8 (.call .answered)

theorem observedGeneration_matches_edited :
    let cell := ((Operator.start fun _ => none).run metaLibrary ⟨"default","csms"⟩ editedRun).cell
    ∃ csms, cell.csms = some csms ∧ csms.generation = 2 ∧
      csms.status.observedGeneration = csms.generation ∧
      ∀ k, Matches ⟨⟨"default","csms"⟩,csms⟩ k (cell.child k) := by
  intro cell
  have hobserved : (cell.csms.any fun csms => csms.generation = 2 ∧
      csms.status.observedGeneration = csms.generation) = true := by decide +kernel
  obtain ⟨csms,hcsms,heq⟩ := (Option.any_eq_true _ _).mp hobserved
  obtain ⟨hgeneration,hobserved⟩ := of_decide_eq_true heq
  exact ⟨csms,hcsms,hgeneration,hobserved,
    observedGeneration_matches metaLibrary _ _ editedRun csms hcsms hobserved⟩

end CsmsPlatform.Controller
