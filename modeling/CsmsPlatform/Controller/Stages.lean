import CsmsPlatform.Controller.Convergence

/-!
# The stages of a reconcile among others

What a stage of the reconciler can do, however its calls fare and whatever others change between them.
A call is made under a condition that the others keep. A stage is described by what it may store.
-/

namespace CsmsPlatform.Controller

open Kubernetes Program

variable {rely : Cell → Cell → Prop} {I P : Cell → Prop} {cell : Cell} {k : Kind}

/-! ## Calls -/

theorem safe_send {key : NamespacedName} {verb : Verb}
    {Q : Except ApiError (Answer verb) → Cell → Prop} (hcell : P cell)
    (hstable : ∀ c c', P c → rely c c' → P c') (hkeep : ∀ c, P c → I c)
    (hfailed : ∀ c, P c → Q (.error .unavailable) c)
    (hlost : ∀ c, P c → Q (.error .unavailable) (perform ⟨key,verb⟩ c).2)
    (hperform : ∀ c, P c → I (perform ⟨key,verb⟩ c).2 ∧
      Q (perform ⟨key,verb⟩ c).1 (perform ⟨key,verb⟩ c).2) :
    Safe serve rely I Q (send key verb) cell := by
  refine safe_ask hcell hstable ?_
  intro c o hc
  cases o with
  | answered => exact hperform c hc
  | failed => exact ⟨hkeep c hc,hfailed c hc⟩
  | lost => exact ⟨(hperform c hc).1,hlost c hc⟩

theorem safe_getCSMS {key : NamespacedName} (hcell : P cell)
    (hstable : ∀ c c', P c → rely c c' → P c') (hkeep : ∀ c, P c → I c) :
    Safe serve rely I (fun reply c => P c ∧ ∀ found, reply = .ok found → c.csms = some found)
      (getCSMS key) cell := by
  have hunavailable (c : Cell) (err : ApiError) (hc : P c) : P c ∧
      ∀ found : CSMSResource, (Except.error err : Except _ _) = .ok found → c.csms = some found :=
    ⟨hc,by simp⟩
  have hcall (c : Cell) : (∃ err, perform ⟨key,.getCSMS⟩ c = (.error err,c)) ∨
      ∃ found, c.csms = some found ∧ perform ⟨key,.getCSMS⟩ c = (.ok found,c) := by
    cases hcsms : c.csms with
    | none => exact .inl ⟨.notFound,by simp only [perform,hcsms]⟩
    | some found => exact .inr ⟨found,rfl,run_getCSMS key hcsms⟩
  refine safe_send hcell hstable hkeep (fun c => hunavailable c _) ?_ ?_
  · intro c hc
    rcases hcall c with ⟨err,hperform⟩ | ⟨found,_,hperform⟩
    · rw [hperform]
      exact hunavailable c _ hc
    · rw [hperform]
      exact hunavailable c _ hc
  · intro c hc
    rcases hcall c with ⟨err,hperform⟩ | ⟨found,hcsms,hperform⟩
    · rw [hperform]
      exact ⟨hkeep c hc,hunavailable c _ hc⟩
    · rw [hperform]
      exact ⟨hkeep c hc,hc,fun _ h => by cases h; exact hcsms⟩

theorem safe_getObject {key : NamespacedName} (hcell : P cell)
    (hstable : ∀ c c', P c → rely c c' → P c') (hkeep : ∀ c, P c → I c) :
    Safe serve rely I (fun reply c => P c ∧ (∀ obj, reply = .ok obj → c.child k = some obj) ∧
      (reply = .error .notFound → c.child k = none)) (getObject key k) cell := by
  have hunavailable (c : Cell) (hc : P c) : P c ∧
      (∀ obj : Object k, (Except.error ApiError.unavailable : Except _ _) = .ok obj → c.child k = some obj) ∧
      ((Except.error ApiError.unavailable : Except _ (Object k)) = .error .notFound →
        c.child k = none) := ⟨hc,by simp,by simp⟩
  refine safe_send hcell hstable hkeep hunavailable ?_ ?_
  · intro c hc
    cases hchild : c.child k with
    | none =>
      rw [show perform ⟨key,.get k⟩ c = _ from run_getObject_absent key hchild]
      exact hunavailable c hc
    | some obj =>
      rw [show perform ⟨key,.get k⟩ c = _ from run_getObject key hchild]
      exact hunavailable c hc
  · intro c hc
    cases hchild : c.child k with
    | none =>
      rw [show perform ⟨key,.get k⟩ c = _ from run_getObject_absent key hchild]
      exact ⟨hkeep c hc,hc,by simp,fun _ => hchild⟩
    | some obj =>
      rw [show perform ⟨key,.get k⟩ c = _ from run_getObject key hchild]
      exact ⟨hkeep c hc,hc,by simp [hchild],by simp⟩

theorem safe_createObject {key : NamespacedName} {obj : Object k}
    {Q : Except ApiError (Object k) → Cell → Prop} (hcell : P cell)
    (hstable : ∀ c c', P c → rely c c' → P c') (hkeep : ∀ c, P c → I c)
    (herror : ∀ c err, P c → Q (.error err) c)
    (hstore : ∀ c stored, P c → c.child k = none →
      stored = { obj with status := default, resourceVersion := 1 } →
      I (c.setChild k (some stored)) ∧ Q (.ok stored) (c.setChild k (some stored)) ∧
        Q (.error .unavailable) (c.setChild k (some stored))) :
    Safe serve rely I Q (createObject key obj) cell := by
  have hcall (c : Cell) (hc : P c) : I (perform ⟨key,.create k obj⟩ c).2 ∧
      Q (perform ⟨key,.create k obj⟩ c).1 (perform ⟨key,.create k obj⟩ c).2 ∧
      Q (.error .unavailable) (perform ⟨key,.create k obj⟩ c).2 := by
    cases hchild : c.child k with
    | none =>
      rw [show perform ⟨key,.create k obj⟩ c = _ from run_createObject key obj hchild]
      exact hstore c _ hc hchild rfl
    | some existing =>
      have hrefused : perform ⟨key,.create k obj⟩ c = (.error .alreadyExists,c) := by
        simp only [perform,hchild]
      rw [hrefused]
      exact ⟨hkeep c hc,herror c _ hc,herror c _ hc⟩
  exact safe_send hcell hstable hkeep (fun c hc => herror c _ hc) (fun c hc => (hcall c hc).2.2)
    fun c hc => ⟨(hcall c hc).1,(hcall c hc).2.1⟩

theorem safe_updateObject {key : NamespacedName} {obj : Object k}
    {Q : Except ApiError (Object k) → Cell → Prop} (hcell : P cell)
    (hstable : ∀ c c', P c → rely c c' → P c') (hkeep : ∀ c, P c → I c)
    (herror : ∀ c err, P c → Q (.error err) c)
    (hstore : ∀ c current, P c → c.child k = some current →
      I (c.setChild k (some (current.replace obj))) ∧
        Q (.ok (current.replace obj)) (c.setChild k (some (current.replace obj))) ∧
        Q (.error .unavailable) (c.setChild k (some (current.replace obj)))) :
    Safe serve rely I Q (updateObject key obj) cell := by
  have hcall (c : Cell) (hc : P c) : I (perform ⟨key,.update k obj⟩ c).2 ∧
      Q (perform ⟨key,.update k obj⟩ c).1 (perform ⟨key,.update k obj⟩ c).2 ∧
      Q (.error .unavailable) (perform ⟨key,.update k obj⟩ c).2 := by
    cases hchild : c.child k with
    | none =>
      have hrefused : perform ⟨key,.update k obj⟩ c = (.error .notFound,c) := by
        simp only [perform,hchild]
      rw [hrefused]
      exact ⟨hkeep c hc,herror c _ hc,herror c _ hc⟩
    | some current =>
      by_cases hversion : obj.resourceVersion = current.resourceVersion
      · rw [show perform ⟨key,.update k obj⟩ c = _ from run_updateObject key hchild hversion]
        exact hstore c current hc hchild
      · have hrefused : perform ⟨key,.update k obj⟩ c = (.error .conflict,c) := by
          simp only [perform,hchild,hversion,if_false]
        rw [hrefused]
        exact ⟨hkeep c hc,herror c _ hc,herror c _ hc⟩
  exact safe_send hcell hstable hkeep (fun c hc => herror c _ hc) (fun c hc => (hcall c hc).2.2)
    fun c hc => ⟨(hcall c hc).1,(hcall c hc).2.1⟩

theorem safe_deleteObject {key : NamespacedName} {Q : Except ApiError Unit → Cell → Prop}
    (hcell : P cell) (hstable : ∀ c c', P c → rely c c' → P c') (hkeep : ∀ c, P c → I c)
    (herror : ∀ c, P c → Q (.error .unavailable) c)
    (hdelete : ∀ c reply, P c → I (c.setChild k none) ∧ Q reply (c.setChild k none)) :
    Safe serve rely I Q (deleteObject key k) cell := by
  have hcall (c : Cell) : ∃ reply : Except ApiError Unit,
      perform ⟨key,.delete k⟩ c = (reply,c.setChild k none) := by
    cases hchild : c.child k with
    | none =>
      refine ⟨.error .notFound,?_⟩
      simp only [perform,hchild]
      rw [← hchild,setChild_self]
      rfl
    | some obj =>
      refine ⟨.ok (),?_⟩
      simp only [perform,hchild]
      rfl
  refine safe_send hcell hstable hkeep herror ?_ ?_
  · intro c hc
    obtain ⟨reply,hperform⟩ := hcall c
    rw [hperform]
    exact (hdelete c _ hc).2
  · intro c hc
    obtain ⟨reply,hperform⟩ := hcall c
    rw [hperform]
    exact hdelete c reply hc

theorem safe_statusUpdate {key : NamespacedName} {csms : CSMSResource}
    {Q : Except ApiError CSMSResource → Cell → Prop} (hcell : P cell)
    (hstable : ∀ c c', P c → rely c c' → P c') (hkeep : ∀ c, P c → I c)
    (herror : ∀ c err, P c → Q (.error err) c)
    (hstore : ∀ c current, P c → c.csms = some current →
      csms.resourceVersion = current.resourceVersion →
      I { c with csms := some (current.writeStatus csms.status) } ∧
        Q (.ok (current.writeStatus csms.status))
          { c with csms := some (current.writeStatus csms.status) } ∧
        Q (.error .unavailable) { c with csms := some (current.writeStatus csms.status) }) :
    Safe serve rely I Q (statusUpdate key csms) cell := by
  have hcall (c : Cell) (hc : P c) : I (perform ⟨key,.updateStatus csms⟩ c).2 ∧
      Q (perform ⟨key,.updateStatus csms⟩ c).1 (perform ⟨key,.updateStatus csms⟩ c).2 ∧
      Q (.error .unavailable) (perform ⟨key,.updateStatus csms⟩ c).2 := by
    cases hcsms : c.csms with
    | none =>
      have hrefused : perform ⟨key,.updateStatus csms⟩ c = (.error .notFound,c) := by
        simp only [perform,hcsms]
      rw [hrefused]
      exact ⟨hkeep c hc,herror c _ hc,herror c _ hc⟩
    | some current =>
      by_cases hversion : csms.resourceVersion = current.resourceVersion
      · rw [show perform ⟨key,.updateStatus csms⟩ c = _ from run_statusUpdate key hcsms hversion]
        exact hstore c current hc hcsms hversion
      · have hrefused : perform ⟨key,.updateStatus csms⟩ c = (.error .conflict,c) := by
          simp only [perform,hcsms,hversion,if_false]
        rw [hrefused]
        exact ⟨hkeep c hc,herror c _ hc,herror c _ hc⟩
  exact safe_send hcell hstable hkeep (fun c hc => herror c _ hc) (fun c hc => (hcall c hc).2.2)
    fun c hc => ⟨(hcall c hc).1,(hcall c hc).2.1⟩

/-! ## Stages -/

variable (lib : MetaLibrary) (csms : CSMS)

@[simp] theorem replace_fields (current obj : Object k) : (current.replace obj).fields = obj.fields := by
  unfold Object.replace
  split
  · next h => exact (congrArg Object.fields h).symm
  · rfl

@[simp] theorem replace_ownerReferences (current obj : Object k) :
    (current.replace obj).ownerReferences = obj.ownerReferences := by
  unfold Object.replace
  split
  · next h => exact (congrArg Object.ownerReferences h).symm
  · rfl

/-- The stage keeps the object it read, or stores what it made of the object it read. -/
theorem safe_createOrUpdate {write : Fields k → Fields k}
    {Q : Except Cause (Object k) → Cell → Prop} (hcell : P cell)
    (hstable : ∀ c c', P c → rely c c' → P c') (hkeep : ∀ c, P c → I c)
    (herror : ∀ c cause, P c → Q (.error cause) c)
    (hsame : ∀ c obj, P c → c.child k = some obj → claimObject lib csms write obj = .ok obj →
      Q (.ok obj) c)
    (hstore : ∀ c read obj current stored, P c → (∃ c', P c' ∧ (c'.child k).getD {} = read) →
      claimObject lib csms write read = .ok obj → (c.child k).getD {} = current →
      stored = current.replace obj →
      I (c.setChild k (some stored)) ∧ Q (.ok stored) (c.setChild k (some stored)) ∧
        ∀ cause, Q (.error cause) (c.setChild k (some stored))) :
    Safe serve rely I Q (createOrUpdate lib csms k write) cell := by
  refine Safe.bind (safe_getObject hcell hstable hkeep) ?_
  rintro reply c ⟨hc,hok,habsent⟩
  split
  · split
    · exact herror c _ hc
    · next obj hclaim =>
      refine Safe.bind (safe_createObject hc hstable hkeep (Q := fun reply c =>
        Q (reply.mapError .api) c) (fun c err hc => herror c _ hc) ?_) fun _ _ h => h
      rintro c' stored hc' hchild rfl
      have hread : ∃ c', P c' ∧ (c'.child k).getD {} = {} := ⟨c,hc,by simp [habsent rfl]⟩
      have hnew := hstore c' {} obj {} _ hc' hread hclaim (by simp [hchild])
        (replace_blank lib csms hclaim).symm
      exact ⟨hnew.1,hnew.2.1,hnew.2.2 _⟩
  · exact herror c _ hc
  · next existing =>
    have hexisting := hok existing rfl
    split
    · exact herror c _ hc
    · next obj hclaim =>
      split
      · next heq =>
        subst heq
        exact hsame c _ hc hexisting hclaim
      · refine Safe.bind (safe_updateObject hc hstable hkeep (Q := fun reply c =>
          Q (reply.mapError .api) c) (fun c err hc => herror c _ hc) ?_) fun _ _ h => h
        intro c' current hc' hchild
        have hnew := hstore c' existing obj current _ hc' ⟨c,hc,by simp [hexisting]⟩ hclaim
          (by simp [hchild]) rfl
        exact ⟨hnew.1,hnew.2.1,hnew.2.2 _⟩

theorem safe_deleteIgnoringNotFound {Q : Except Cause Unit → Cell → Prop} (hcell : P cell)
    (hstable : ∀ c c', P c → rely c c' → P c') (hkeep : ∀ c, P c → I c)
    (herror : ∀ c cause, P c → Q (.error cause) c)
    (hdelete : ∀ c result, P c → I (c.setChild k none) ∧ Q result (c.setChild k none)) :
    Safe serve rely I Q (deleteIgnoringNotFound csms k) cell := by
  refine Safe.bind (safe_deleteObject (Q := fun reply c => Q (ignoreNotFound reply) c) hcell hstable hkeep
    (fun c hc => herror c _ hc) ?_) fun _ _ h => h
  intro c reply hc
  exact hdelete c _ hc

theorem safe_orReturn {α β : Type} {context : String} {step : Client (Except Cause α)}
    {next : α → Client (Except ReconcileError β)} {R : Except ReconcileError β → Cell → Prop}
    {Q : Except Cause α → Cell → Prop} (hstep : Safe serve rely I Q step cell)
    (herror : ∀ c cause, Q (.error cause) c → R (.error ⟨context,cause⟩) c)
    (hnext : ∀ c value, Q (.ok value) c → Safe serve rely I R (next value) c) :
    Safe serve rely I R (orReturn context step next) cell := by
  refine Safe.bind hstep ?_
  intro result c h
  cases result with
  | error cause => exact herror c cause h
  | ok value => exact hnext c value h

end CsmsPlatform.Controller
