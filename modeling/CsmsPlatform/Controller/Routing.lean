import CsmsPlatform.Controller.Isolation
import CsmsPlatform.Controller.Pod

/-!
# Which pods a host leads to

An Ingress sends the requests for a host to a port of a Service, the Service to a named port of the pods
it selects. The reconciler writes the two, and the labels and ports of the pods, as objects of their own;
here they are followed from end to end, for all the CSMS of a cluster at once. Of the Ingress controllers
and the network of the cluster only what is stated here is relied on.
-/

namespace CsmsPlatform.Controller

open Kubernetes Program

/-! ## The network of a cluster -/

structure RunningPod where
  inNamespace : String
  name : String
  labels : StringMap
  containers : List Container
  oneValue : (labels.map Prod.fst).Nodup

/-- A named port is that of a container. -/
def RunningPod.Targeted (pod : RunningPod) (target : IntOrString) (port : Int32) : Prop :=
  match target with
  | .int value => port = value
  | .string name => ∃ container ∈ pod.containers, ContainerPort.mk name port ∈ container.ports

def RunningPod.Carries (pod : RunningPod) (inNamespace : String) (labels : StringMap) : Prop :=
  pod.inNamespace = inNamespace ∧ ∀ entry ∈ labels, entry ∈ pod.labels

/-- What a cluster does with connections and requests. -/
structure Network where
  /-- A connection to a port of a Service may be one to a port of a pod. -/
  connects : NamespacedName → String → RunningPod → Int32 → Prop
  /-- A request for a host and path may be sent on to a port of a Service because of an Ingress. -/
  forwards : NamespacedName → String → String → NamespacedName → String → Prop
  ready : RunningPod → Prop
  /-- The Ingresses that a controller takes charge of. -/
  served : NamespacedName → Prop
  /-- The annotations that no controller reads a route from. -/
  plain : StringMap → Prop

/-- A host that is one name: no rule for all hosts, no wildcard. -/
def preciseHost (host : String) : Bool :=
  host ≠ "" && !host.toList.contains '*'

def selecting (svc : Object .service) : Bool :=
  Service.selector svc.fields ≠ [] && svc.other.lookup "spec.type" ≠ some "ExternalName"

/-- What the network is relied on for with Services. -/
structure FollowsServices (cluster : Cluster) (network : Network) : Prop where
  only : ∀ name portName pod port, network.connects name portName pod port →
    ∃ svc, (cluster name).child .service = some svc ∧ (selecting svc = true →
      pod.Carries name.inNamespace (Service.selector svc.fields) ∧
      ∃ svcPort ∈ Service.ports svc.fields, svcPort.name = portName ∧ pod.Targeted svcPort.targetPort port)
  everyReady : ∀ name svc pod port, (cluster name).child .service = some svc → selecting svc = true →
    network.ready pod → pod.Carries name.inNamespace (Service.selector svc.fields) →
    ∀ svcPort ∈ Service.ports svc.fields, pod.Targeted svcPort.targetPort port →
      network.connects name svcPort.name pod port

/-- No Ingress of another name has a rule that is, or may be, for the host. -/
def Unshared (cluster : Cluster) (key : NamespacedName) (host : String) : Prop :=
  ∀ other obj, other ≠ key → (cluster other).child .ingress = some obj →
    ∀ rule ∈ Ingress.rules obj.fields, rule.host ≠ host ∧ preciseHost rule.host = true

/-- What the Ingress controllers are relied on for. -/
structure FollowsIngresses (cluster : Cluster) (network : Network) : Prop where
  only : ∀ name host path svc portName, network.forwards name host path svc portName →
    ∃ obj, (cluster name).child .ingress = some obj ∧
      (obj.other.lookup "spec.defaultBackend" = none → network.plain (Ingress.annotations obj.fields) →
        ∃ rule ∈ Ingress.rules obj.fields, (preciseHost rule.host = true → rule.host = host) ∧
          ∃ route ∈ rule.http.getD [], ∃ backend, route.service = some backend ∧
            svc = ⟨name.inNamespace,backend.name⟩ ∧ portName = backend.portName)
  everyPath : ∀ name obj host path route backend, (cluster name).child .ingress = some obj →
    network.served name → network.plain (Ingress.annotations obj.fields) →
    Ingress.rules obj.fields = [⟨host,some [route]⟩] → Unshared cluster name host →
    route.path = "/" → route.pathType = some .pathTypePrefix → route.service = some backend →
    network.forwards name host path ⟨name.inNamespace,backend.name⟩ backend.portName

/-- A request may come to a port of a pod because of the Ingress of a name. -/
def Network.Reaches (network : Network) (key : NamespacedName) (host path : String) (pod : RunningPod)
    (port : Int32) : Prop :=
  ∃ svc portName, network.forwards key host path svc portName ∧ network.connects svc portName pod port

def RunningPod.RunsFor (pod : RunningPod) (cluster : Cluster) (key : NamespacedName) : Prop :=
  ∃ template, cluster.template key = some template ∧ pod.containers = template.containers ∧
    pod.Carries key.inNamespace template.labels

/-! ## What the reconciler has written -/

section Reconciled

variable {cluster : Cluster} {keys : List NamespacedName} {found : NamespacedName → CSMSResource}
  {network : Network} {key : NamespacedName} {pod : RunningPod} {port : Int32}

def InLine (cluster : Cluster) (keys : List NamespacedName) (found : NamespacedName → CSMSResource) : Prop :=
  ∀ key ∈ keys, ∀ k, Matches ⟨key,found key⟩ k ((cluster key).child k)

/-- Nobody has added to the written objects what leads past them. -/
def Unbypassed (cluster : Cluster) (keys : List NamespacedName) : Prop :=
  ∀ key ∈ keys,
    (∀ svc, (cluster key).child .service = some svc → svc.other.lookup "spec.type" ≠ some "ExternalName") ∧
    ∀ obj, (cluster key).child .ingress = some obj → obj.other.lookup "spec.defaultBackend" = none

theorem template_of_inLine (h : InLine cluster keys found) (hkey : key ∈ keys) :
    cluster.template key = some (writeDeployment ⟨key,found key⟩ (labelsOf key) default).template := by
  obtain ⟨obj,hobj,hfields,_⟩ := h key hkey .deployment
  rw [Cluster.template,hobj,Option.map_some,hfields]
  rfl

theorem RunningPod.RunsFor.carries (h : InLine cluster keys found) (hkey : key ∈ keys)
    (hpod : pod.RunsFor cluster key) : pod.Carries key.inNamespace (labelsOf key) := by
  obtain ⟨template,htemplate,_,hcarries⟩ := hpod
  cases htemplate.symm.trans (template_of_inLine h hkey)
  exact hcarries

theorem RunningPod.RunsFor.targeted_iff (h : InLine cluster keys found) (hkey : key ∈ keys)
    (hpod : pod.RunsFor cluster key) :
    pod.Targeted (.string "http") port ↔ port = httpPort ⟨key,found key⟩ := by
  obtain ⟨template,htemplate,hcontainers,_⟩ := hpod
  cases htemplate.symm.trans (template_of_inLine h hkey)
  simp [RunningPod.Targeted,hcontainers,writeDeployment]

/-- A label has one value, so a pod is that of one name of its namespace. -/
theorem RunningPod.Carries.key_unique {key key' : NamespacedName}
    (h : pod.Carries key.inNamespace (labelsOf key)) (h' : pod.Carries key'.inNamespace (labelsOf key')) :
    key' = key := by
  -- the name of the CSMS is the value of one label
  have hinstance : (labelInstance,key.name) ∈ pod.labels := h.2 _ (by simp [labelsOf])
  have hinstance' : (labelInstance,key'.name) ∈ pod.labels := h'.2 _ (by simp [labelsOf])
  have hname := congrArg Prod.snd (List.inj_on_of_nodup_map pod.oneValue hinstance' hinstance rfl)
  have hnamespace := h'.1.symm.trans h.1
  cases key
  cases key'
  cases hname
  cases hnamespace
  rfl

theorem service_of_inLine (h : InLine cluster keys found) (hopen : Unbypassed cluster keys)
    (hkey : key ∈ keys) : ∃ svc, (cluster key).child .service = some svc ∧ selecting svc = true ∧
      Service.selector svc.fields = labelsOf key ∧
      Service.ports svc.fields =
        [{ name := "http", port := httpPort ⟨key,found key⟩, targetPort := .string "http" }] := by
  obtain ⟨svc,hsvc,hfields,_⟩ := h key hkey .service
  have hselector : Service.selector svc.fields = labelsOf key := congrArg Service.selector hfields
  have hselecting : selecting svc = true := by
    simp [selecting,hselector,labelsOf,(hopen key hkey).1 svc hsvc]
  exact ⟨svc,hsvc,hselecting,hselector,congrArg Service.ports hfields⟩

theorem connects_own (h : InLine cluster keys found) (hopen : Unbypassed cluster keys)
    (hservices : FollowsServices cluster network) (hkey : key ∈ keys) {portName : String}
    (hconnects : network.connects key portName pod port) :
    pod.Carries key.inNamespace (labelsOf key) ∧ pod.Targeted (.string "http") port := by
  obtain ⟨svc,hsvc,hselecting,hselector,hports⟩ := service_of_inLine h hopen hkey
  obtain ⟨svc',hsvc',honly⟩ := hservices.only key portName pod port hconnects
  cases hsvc'.symm.trans hsvc
  obtain ⟨hcarries,svcPort,hmem,_,htargeted⟩ := honly hselecting
  rw [hselector] at hcarries
  rw [hports,List.mem_singleton] at hmem
  subst hmem
  exact ⟨hcarries,htargeted⟩

theorem connects_ready (h : InLine cluster keys found) (hopen : Unbypassed cluster keys)
    (hservices : FollowsServices cluster network) (hkey : key ∈ keys) (hpod : pod.RunsFor cluster key)
    (hready : network.ready pod) : network.connects key "http" pod (httpPort ⟨key,found key⟩) := by
  obtain ⟨svc,hsvc,hselecting,hselector,hports⟩ := service_of_inLine h hopen hkey
  have hcarries : pod.Carries key.inNamespace (Service.selector svc.fields) :=
    hselector ▸ hpod.carries h hkey
  exact hservices.everyReady key svc pod _ hsvc hselecting hready hcarries
    { name := "http", port := httpPort ⟨key,found key⟩, targetPort := .string "http" } (by simp [hports])
    ((hpod.targeted_iff h hkey).mpr rfl)

def ownPath (name : String) : HTTPIngressPath :=
  { path := "/", pathType := some .pathTypePrefix, service := some { name := name, portName := "http" } }

theorem ingress_of_inLine (h : InLine cluster keys found) (hkey : key ∈ keys) :
    ((found key).spec.ingress = none → (cluster key).child .ingress = none) ∧
    ∀ ingress, (found key).spec.ingress = some ingress →
      ∃ obj, (cluster key).child .ingress = some obj ∧
        Ingress.annotations obj.fields = ingress.annotations ∧
        Ingress.rules obj.fields = [⟨ingress.host,some [ownPath key.name]⟩] := by
  have hmatches := h key hkey .ingress
  unfold Matches at hmatches
  have hdesired : desired ⟨key,found key⟩ .ingress = ((found key).spec.ingress.map fun spec =>
      writeIngress ⟨key,found key⟩ spec (labelsOf key)).map fun write => write default := rfl
  rw [hdesired] at hmatches
  constructor
  · intro hspec
    rw [hspec] at hmatches
    exact hmatches
  · intro ingress hspec
    rw [hspec] at hmatches
    obtain ⟨obj,hobj,hfields,_⟩ := hmatches
    exact ⟨obj,hobj,congrArg Ingress.annotations hfields,congrArg Ingress.rules hfields⟩

theorem forwards_own (h : InLine cluster keys found) (hopen : Unbypassed cluster keys)
    (hingresses : FollowsIngresses cluster network) (hkey : key ∈ keys)
    (hspec : ∀ ingress, (found key).spec.ingress = some ingress →
      preciseHost ingress.host = true ∧ network.plain ingress.annotations)
    {host path portName : String} {svc : NamespacedName}
    (hforwards : network.forwards key host path svc portName) :
    svc = key ∧ ∃ ingress, (found key).spec.ingress = some ingress ∧ ingress.host = host := by
  obtain ⟨hnone,hsome⟩ := ingress_of_inLine h hkey
  obtain ⟨obj,hobj,honly⟩ := hingresses.only key host path svc portName hforwards
  cases hingress : (found key).spec.ingress with
  | none => cases hobj.symm.trans (hnone hingress)
  | some ingress =>
    obtain ⟨obj',hobj',hannotations,hrules⟩ := hsome ingress hingress
    cases hobj'.symm.trans hobj
    obtain ⟨hprecise,hplain⟩ := hspec ingress hingress
    obtain ⟨rule,hrule,hhost,route,hroute,backend,hbackend,hsvc,_⟩ :=
      honly ((hopen key hkey).2 obj hobj) (hannotations ▸ hplain)
    rw [hrules,List.mem_singleton] at hrule
    subst hrule
    rw [Option.getD_some,List.mem_singleton] at hroute
    subst hroute
    cases hbackend
    exact ⟨hsvc,ingress,rfl,hhost hprecise⟩

theorem forwards_every (h : InLine cluster keys found) (hingresses : FollowsIngresses cluster network)
    (hkey : key ∈ keys) {ingress : CSMSIngress} (hingress : (found key).spec.ingress = some ingress)
    (hplain : network.plain ingress.annotations) (hserved : network.served key)
    (hunshared : Unshared cluster key ingress.host) (path : String) :
    network.forwards key ingress.host path key "http" := by
  obtain ⟨obj,hobj,hannotations,hrules⟩ := (ingress_of_inLine h hkey).2 ingress hingress
  exact hingresses.everyPath key obj ingress.host path (ownPath key.name) ⟨key.name,"http"⟩ hobj hserved
    (hannotations ▸ hplain) hrules hunshared rfl rfl rfl

end Reconciled

theorem inLine_of_interleaved {lib : MetaLibrary} {keys : List NamespacedName} {now : NamespacedName → Int}
    {cluster : Cluster} {schedule : List { name // name ∈ keys }} {found : NamespacedName → CSMSResource}
    (hfound : ∀ key ∈ keys, (cluster key).csms = some (found key))
    (hdone : ∀ key, (interleaved lib keys now cluster schedule).program key = .done (.ok ())) :
    InLine (interleaved lib keys now cluster schedule).table keys found := by
  have hapart : (reconciling lib keys now cluster).Apart Request.key Subtype.val :=
    fun key => local_reconcile lib key.1 (now key.1)
  intro key hkey k
  have halone := (Pool.steps_keep perform Subtype.val_injective hapart schedule).1 ⟨key,hkey⟩
  have hend := hdone ⟨key,hkey⟩
  unfold interleaved at hend ⊢
  rw [hend,run_done] at halone
  have hcell := congrArg Prod.snd halone
  dsimp only at hcell
  rw [hcell]
  exact reconcile_ok_matches (hfound key hkey) (congrArg Prod.fst halone).symm k

/-- However the reconciles of any number of CSMS take turns, once all have succeeded the Ingress of a CSMS
leads requests for its own host only, and only to pods that carry its labels, each at its own port named
`http`: never to a pod of the others, and at the port of the spec for a pod made from the present template.
Every such pod that is ready is reached. -/
theorem ingresses_reach_own (lib : MetaLibrary) (keys : List NamespacedName) (now : NamespacedName → Int)
    (cluster : Cluster) (schedule : List { name // name ∈ keys }) (found : NamespacedName → CSMSResource)
    (hfound : ∀ key ∈ keys, (cluster key).csms = some (found key))
    (hdone : ∀ key, (interleaved lib keys now cluster schedule).program key = .done (.ok ()))
    (hopen : Unbypassed (interleaved lib keys now cluster schedule).table keys) (network : Network)
    (hservices : FollowsServices (interleaved lib keys now cluster schedule).table network)
    (hingresses : FollowsIngresses (interleaved lib keys now cluster schedule).table network)
    (hspec : ∀ key ∈ keys, ∀ ingress, (found key).spec.ingress = some ingress →
      preciseHost ingress.host = true ∧ network.plain ingress.annotations)
    (key : NamespacedName) (hkey : key ∈ keys) :
    let after : Cluster := (interleaved lib keys now cluster schedule).table
    (∀ host path pod port, network.Reaches key host path pod port →
      (∃ ingress, (found key).spec.ingress = some ingress ∧ ingress.host = host) ∧
      pod.Carries key.inNamespace (labelsOf key) ∧ pod.Targeted (.string "http") port ∧
      ∀ key' ∈ keys, pod.RunsFor after key' → key' = key ∧ port = httpPort ⟨key,found key⟩) ∧
    ∀ ingress, (found key).spec.ingress = some ingress → network.served key →
      Unshared after key ingress.host → ∀ path pod, pod.RunsFor after key → network.ready pod →
        network.Reaches key ingress.host path pod (httpPort ⟨key,found key⟩) := by
  intro after
  have hline : InLine after keys found := inLine_of_interleaved hfound hdone
  constructor
  · rintro host path pod port ⟨svc,portName,hforwards,hconnects⟩
    obtain ⟨rfl,hhost⟩ := forwards_own hline hopen hingresses hkey (hspec key hkey) hforwards
    obtain ⟨hcarries,htargeted⟩ := connects_own hline hopen hservices hkey hconnects
    refine ⟨hhost,hcarries,htargeted,?_⟩
    intro key' hkey' hruns
    obtain rfl : key' = svc := hcarries.key_unique (hruns.carries hline hkey')
    exact ⟨rfl,(hruns.targeted_iff hline hkey).mp htargeted⟩
  · intro ingress hingress hserved hunshared path pod hruns hready
    exact ⟨key,"http",
      forwards_every hline hingresses hkey hingress (hspec key hkey ingress hingress).2 hserved hunshared path,
      connects_ready hline hopen hservices hkey hruns hready⟩

/-! ## Two CSMS -/

/-- The network that does what its Services and Ingresses say, with every pod ready. -/
def wiredNetwork (cluster : Cluster) : Network where
  connects name portName pod port := ∃ svc, (cluster name).child .service = some svc ∧
    pod.Carries name.inNamespace (Service.selector svc.fields) ∧
    ∃ svcPort ∈ Service.ports svc.fields, svcPort.name = portName ∧ pod.Targeted svcPort.targetPort port
  forwards name host _ svc portName := ∃ obj, (cluster name).child .ingress = some obj ∧
    ∃ rule ∈ Ingress.rules obj.fields, rule.host = host ∧ ∃ route ∈ rule.http.getD [], ∃ backend,
      route.service = some backend ∧ svc = ⟨name.inNamespace,backend.name⟩ ∧ portName = backend.portName
  ready _ := True
  served _ := True
  plain _ := True

theorem wiredNetwork_followsServices (cluster : Cluster) :
    FollowsServices cluster (wiredNetwork cluster) where
  only _ _ _ _ := by
    rintro ⟨svc,hsvc,hconnects⟩
    exact ⟨svc,hsvc,fun _ => hconnects⟩
  everyReady name svc pod port hsvc _ _ hcarries svcPort hmem htargeted :=
    ⟨svc,hsvc,hcarries,svcPort,hmem,rfl,htargeted⟩

theorem wiredNetwork_followsIngresses (cluster : Cluster) :
    FollowsIngresses cluster (wiredNetwork cluster) where
  only _ _ _ _ _ := by
    rintro ⟨obj,hobj,rule,hrule,hhost,hroute⟩
    exact ⟨obj,hobj,fun _ _ => ⟨rule,hrule,fun _ => hhost,hroute⟩⟩
  everyPath name obj host path route backend hobj _ _ hrules _ _ _ hbackend :=
    ⟨obj,hobj,⟨host,some [route]⟩,by simp [hrules],rfl,route,by simp,backend,hbackend,rfl,rfl⟩

def succeeded : Client (Except ReconcileError Unit) → Bool
  | .done (.ok ()) => true
  | _ => false

theorem eq_done_of_succeeded {program : Client (Except ReconcileError Unit)}
    (h : succeeded program = true) : program = .done (.ok ()) := by
  unfold succeeded at h
  split at h
  · rfl
  · cases h

def hostedCSMS (name : NamespacedName) : CSMSResource :=
  { uid := name.name, generation := 1, resourceVersion := 1, status := default, spec :=
      { (default : CSMSSpec) with
        image := "csms-runtime:0.1.0"
        port := if name.name = "b" then 9000 else 0
        ingress := some { (default : CSMSIngress) with host := name.name++".example" } } }

def hostedCluster : Cluster := fun name => { csms := some (hostedCSMS name) }

def hostedAfter : Cluster :=
  (interleaved metaLibrary twoKeys (fun _ => 100) hostedCluster takingTurns).table

def hostedPod (key : NamespacedName) : RunningPod where
  inNamespace := key.inNamespace
  name := key.name++"-0"
  labels := labelsOf key
  containers := (writeDeployment ⟨key,hostedCSMS key⟩ (labelsOf key) default).template.containers
  oneValue := by simp [labelsOf,labelInstance,labelName]

theorem hosted_done (key : { name // name ∈ twoKeys }) :
    (interleaved metaLibrary twoKeys (fun _ => 100) hostedCluster takingTurns).program key =
      .done (.ok ()) := by
  have hall : (twoKeys.attach.all fun key => succeeded ((interleaved metaLibrary twoKeys (fun _ => 100)
      hostedCluster takingTurns).program key)) = true := by decide +kernel
  exact eq_done_of_succeeded (List.all_eq_true.mp hall key (List.mem_attach _ _))

theorem hosted_inLine : InLine hostedAfter twoKeys hostedCSMS :=
  inLine_of_interleaved (fun _ _ => rfl) hosted_done

theorem hosted_unbypassed : Unbypassed hostedAfter twoKeys := by
  have hall : ∀ key ∈ twoKeys,
      ((hostedAfter key).child .service).all (fun svc => svc.other.isEmpty) = true ∧
      ((hostedAfter key).child .ingress).all (fun obj => obj.other.isEmpty) = true := by decide +kernel
  intro key hkey
  obtain ⟨hservice,hingress⟩ := hall key hkey
  constructor
  · intro svc hsvc
    rw [hsvc,Option.all_some,List.isEmpty_iff] at hservice
    simp [hservice]
  · intro obj hobj
    rw [hobj,Option.all_some,List.isEmpty_iff] at hingress
    simp [hingress]

theorem hosted_unshared {key : NamespacedName} (hkey : key ∈ twoKeys) :
    Unshared hostedAfter key (key.name++".example") := by
  have hapart : ∀ key ∈ twoKeys, ∀ other ∈ twoKeys, other ≠ key →
      other.name++".example" ≠ key.name++".example" ∧ preciseHost (other.name++".example") = true := by
    decide
  intro other obj hother hobj rule hrule
  by_cases hmem : other ∈ twoKeys
  · obtain ⟨obj',hobj',_,hrules⟩ := (ingress_of_inLine hosted_inLine hmem).2 _ rfl
    cases hobj'.symm.trans hobj
    rw [hrules,List.mem_singleton] at hrule
    subst hrule
    exact hapart key hkey other hmem hother
  · have htable : hostedAfter = eachReconciled metaLibrary twoKeys (fun _ => 100) hostedCluster :=
      interleaved_table fun key => by rw [hosted_done key]; rfl
    rw [htable,eachReconciled,if_neg hmem] at hobj
    cases hobj

theorem hosted_runsFor {key : NamespacedName} (hkey : key ∈ twoKeys) :
    (hostedPod key).RunsFor hostedAfter key :=
  ⟨_,template_of_inLine hosted_inLine hkey,rfl,rfl,fun _ hentry => hentry⟩

theorem ingresses_reach_own_two :
    let network := wiredNetwork hostedAfter
    network.Reaches ⟨"default","a"⟩ "a.example" "/CP-1" (hostedPod ⟨"default","a"⟩) 8080 ∧
    network.Reaches ⟨"default","b"⟩ "b.example" "/CP-1" (hostedPod ⟨"default","b"⟩) 9000 ∧
    ∀ key ∈ twoKeys, ∀ port, ¬network.Reaches key "a.example" "/CP-1" (hostedPod ⟨"default","b"⟩) port := by
  intro network
  have hprecise : ∀ key ∈ twoKeys, preciseHost (key.name++".example") = true := by decide
  have hspec : ∀ key ∈ twoKeys, ∀ ingress, (hostedCSMS key).spec.ingress = some ingress →
      preciseHost ingress.host = true ∧ network.plain ingress.annotations := by
    intro key hkey ingress hingress
    cases hingress
    exact ⟨hprecise key hkey,trivial⟩
  have hreach := ingresses_reach_own metaLibrary twoKeys (fun _ => 100) hostedCluster takingTurns hostedCSMS
    (fun _ _ => rfl) hosted_done hosted_unbypassed network (wiredNetwork_followsServices _)
    (wiredNetwork_followsIngresses _) hspec
  have ha : (⟨"default","a"⟩ : NamespacedName) ∈ twoKeys := by decide
  have hb : (⟨"default","b"⟩ : NamespacedName) ∈ twoKeys := by decide
  refine ⟨(hreach _ ha).2 _ rfl trivial (hosted_unshared ha) _ _ (hosted_runsFor ha) trivial,
    (hreach _ hb).2 _ rfl trivial (hosted_unshared hb) _ _ (hosted_runsFor hb) trivial,?_⟩
  intro key hkey port hreaches
  obtain ⟨⟨ingress,hingress,hhost⟩,_,_,hown⟩ := (hreach key hkey).1 _ _ _ _ hreaches
  obtain ⟨rfl,_⟩ := hown _ hb (hosted_runsFor hb)
  cases hingress
  revert hhost
  decide

end CsmsPlatform.Controller
