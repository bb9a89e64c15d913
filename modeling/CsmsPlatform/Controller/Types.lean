import CsmsPlatform.Framework.Kubernetes

/-!
# The CSMS resource and its children

The custom resource, and of each of the five child objects the fields that the reconciler writes. A Go
map is the list of its entries in key order. The API does not tell an absent map from an empty one; the
two are kept apart only where the reconciler compares with nil.
-/

namespace CsmsPlatform.Controller

open Kubernetes

abbrev StringMap := List (String × String)

/-- Fields that no function of the reconciler names, by path, as text; none when they are all zero. -/
abbrev OtherFields := List (String × String)

structure NamespacedName where
  inNamespace : String
  name : String
deriving DecidableEq, Repr

inductive IntOrString where
  | int (value : Int32)
  | string (value : String)
deriving DecidableEq, Repr, Inhabited

/-- A quantity is its value in units of 10⁻⁹, the finest the API keeps. -/
abbrev Quantity := Int

def Quantity.milli (n : Int) : Quantity := n*1000000

def Quantity.mebi (n : Int) : Quantity := n*1048576*1000000000

abbrev ResourceList := List (String × Quantity)

structure ResourceClaim where
  name : String
  request : String
deriving DecidableEq, Repr, Inhabited

structure ResourceRequirements where
  requests : Option ResourceList
  limits : Option ResourceList
  claims : List ResourceClaim
deriving DecidableEq, Repr, Inhabited

/-! ## The custom resource -/

structure CSMSTLS where
  secretName : String
  clientCASecretName : String
deriving DecidableEq, Repr, Inhabited

structure CSMSIngress where
  host : String
  ingressClassName : String
  tlsSecretName : String
  annotations : StringMap
deriving DecidableEq, Repr, Inhabited

structure CSMSSpec where
  image : String
  replicas : Option Int32
  port : Int32
  livenessPath : String
  readinessPath : String
  terminationGracePeriodSeconds : Option Int64
  databaseSecretName : String
  redisSecretName : String
  apiSecretName : String
  config : StringMap
  resources : ResourceRequirements
  minAvailable : Option IntOrString
  ingress : Option CSMSIngress
  tls : Option CSMSTLS
deriving DecidableEq, Repr, Inhabited

structure CSMSStatus where
  replicas : Int32
  readyReplicas : Int32
  observedGeneration : Int64
  conditions : List Condition
deriving DecidableEq, Repr, Inhabited

/-- A CSMS as the API stores it under its name. The resource version counts the writes. -/
structure CSMSResource where
  uid : String
  generation : Int64
  resourceVersion : Nat
  spec : CSMSSpec
  status : CSMSStatus
deriving DecidableEq, Repr, Inhabited

def CSMSResource.withStatus (csms : CSMSResource) (status : CSMSStatus) : CSMSResource :=
  { csms with status := status }

structure CSMS extends NamespacedName, CSMSResource
deriving DecidableEq, Repr

def csmsConditionAvailable : String := "Available"
def csmsConditionProgressing : String := "Progressing"

def CSMS.controllerRef (csms : CSMS) : OwnerReference where
  apiVersion := "csms.seanlee0923.dev/v1alpha1"
  kind := "CSMS"
  name := csms.name
  uid := csms.uid
  blockOwnerDeletion := some true
  controller := some true

/-! ## The children -/

structure ConfigMap where
  labels : StringMap
  data : StringMap
deriving DecidableEq, Repr, Inhabited

structure ServicePort where
  name : String
  port : Int32
  targetPort : IntOrString
  other : OtherFields := []
deriving DecidableEq, Repr, Inhabited

structure Service where
  labels : StringMap
  selector : StringMap
  ports : List ServicePort
deriving DecidableEq, Repr, Inhabited

structure LabelSelector where
  matchLabels : StringMap
  other : OtherFields := []
deriving DecidableEq, Repr, Inhabited

structure SecretEnvSource where
  name : String
  optional : Option Bool
deriving DecidableEq, Repr, Inhabited

structure EnvFromSource where
  configMapRef : Option String := none
  secretRef : Option SecretEnvSource := none
deriving DecidableEq, Repr, Inhabited

structure EnvVar where
  name : String
  fieldRef : Option String
deriving DecidableEq, Repr, Inhabited

structure ContainerPort where
  name : String
  containerPort : Int32
deriving DecidableEq, Repr, Inhabited

structure Volume where
  name : String
  secret : Option String
deriving DecidableEq, Repr, Inhabited

structure VolumeMount where
  name : String
  mountPath : String
  readOnly : Bool
deriving DecidableEq, Repr, Inhabited

inductive URIScheme where
  | http
  | https
deriving DecidableEq, Repr, Inhabited

structure Probe where
  path : String
  port : IntOrString
  scheme : URIScheme
  periodSeconds : Int32
deriving DecidableEq, Repr, Inhabited

inductive PullPolicy where
  | always
  | never
  | ifNotPresent
deriving DecidableEq, Repr, Inhabited

structure ContainerResources where
  requests : ResourceList
  limits : ResourceList
  claims : List ResourceClaim
deriving DecidableEq, Repr, Inhabited

structure Container where
  name : String
  image : String
  imagePullPolicy : PullPolicy
  envFrom : List EnvFromSource
  env : List EnvVar
  ports : List ContainerPort
  volumeMounts : List VolumeMount
  readinessProbe : Option Probe
  livenessProbe : Option Probe
  resources : ContainerResources
deriving DecidableEq, Repr, Inhabited

structure PodTemplateSpec where
  labels : StringMap
  terminationGracePeriodSeconds : Option Int64
  volumes : List Volume
  containers : List Container
  other : OtherFields := []
deriving DecidableEq, Repr, Inhabited

structure Deployment where
  labels : StringMap
  replicas : Option Int32
  selector : Option LabelSelector
  template : PodTemplateSpec
deriving DecidableEq, Repr, Inhabited

structure DeploymentStatus where
  replicas : Int32
  readyReplicas : Int32
deriving DecidableEq, Repr, Inhabited

structure PodDisruptionBudget where
  labels : StringMap
  minAvailable : Option IntOrString
  selector : Option LabelSelector
deriving DecidableEq, Repr, Inhabited

inductive PathType where
  | pathTypeExact
  | pathTypePrefix
  | pathTypeImplementationSpecific
deriving DecidableEq, Repr, Inhabited

structure IngressServiceBackend where
  name : String
  portName : String
deriving DecidableEq, Repr, Inhabited

structure HTTPIngressPath where
  path : String
  pathType : Option PathType
  service : Option IngressServiceBackend
  other : OtherFields := []
deriving DecidableEq, Repr, Inhabited

structure IngressRule where
  host : String
  http : Option (List HTTPIngressPath)
deriving DecidableEq, Repr, Inhabited

structure IngressTLS where
  hosts : List String
  secretName : String
deriving DecidableEq, Repr, Inhabited

structure Ingress where
  labels : StringMap
  annotations : StringMap
  ingressClassName : Option String
  rules : List IngressRule
  tls : List IngressTLS
deriving DecidableEq, Repr, Inhabited

inductive Kind where
  | configMap
  | service
  | deployment
  | podDisruptionBudget
  | ingress
deriving DecidableEq, Repr

/-- The fields of a kind that the reconciler writes. -/
def Fields : Kind → Type
  | .configMap => ConfigMap
  | .service => Service
  | .deployment => Deployment
  | .podDisruptionBudget => PodDisruptionBudget
  | .ingress => Ingress

instance : (k : Kind) → DecidableEq (Fields k)
  | .configMap => inferInstanceAs (DecidableEq ConfigMap)
  | .service => inferInstanceAs (DecidableEq Service)
  | .deployment => inferInstanceAs (DecidableEq Deployment)
  | .podDisruptionBudget => inferInstanceAs (DecidableEq PodDisruptionBudget)
  | .ingress => inferInstanceAs (DecidableEq Ingress)

instance : (k : Kind) → Inhabited (Fields k)
  | .configMap => inferInstanceAs (Inhabited ConfigMap)
  | .service => inferInstanceAs (Inhabited Service)
  | .deployment => inferInstanceAs (Inhabited Deployment)
  | .podDisruptionBudget => inferInstanceAs (Inhabited PodDisruptionBudget)
  | .ingress => inferInstanceAs (Inhabited Ingress)

def Status : Kind → Type
  | .deployment => DeploymentStatus
  | _ => Unit

instance : (k : Kind) → DecidableEq (Status k)
  | .deployment => inferInstanceAs (DecidableEq DeploymentStatus)
  | .configMap | .service | .podDisruptionBudget | .ingress => inferInstanceAs (DecidableEq Unit)

instance : (k : Kind) → Inhabited (Status k)
  | .deployment => inferInstanceAs (Inhabited DeploymentStatus)
  | .configMap | .service | .podDisruptionBudget | .ingress => inferInstanceAs (Inhabited Unit)

structure Object (k : Kind) where
  resourceVersion : Nat := 0
  ownerReferences : List OwnerReference := []
  fields : Fields k := default
  status : Status k := default
  other : OtherFields := []
deriving DecidableEq

def Object.deploymentStatus (deployment : Object .deployment) : DeploymentStatus := deployment.status

/-- An object controlled by the CSMS, as the API identifies owners. -/
def Object.IsControlledBy {k : Kind} (obj : Object k) (csms : CSMS) : Prop :=
  ∃ ref, getControllerOf obj.ownerReferences = some ref ∧ ref.uid = csms.uid

instance {k : Kind} (obj : Object k) (csms : CSMS) : Decidable (obj.IsControlledBy csms) :=
  decidable_of_iff ((getControllerOf obj.ownerReferences).any (fun ref => ref.uid = csms.uid) = true)
    (by simp [Object.IsControlledBy,Option.any_eq_true])

end CsmsPlatform.Controller
