import Mathlib.Logic.Function.Basic
import CsmsPlatform.Framework.Program
import CsmsPlatform.Controller.Types

/-!
# Reconciling a CSMS

`Reconcile` as a program of API calls: it reads the CSMS, brings the five children in line one after
the other and writes the status. All it touches stands under one name, and the API server is described
by what a call does to the objects of that name.
-/

namespace CsmsPlatform.Controller

open Kubernetes Program

/-! ## The API server -/

inductive ApiError where
  | notFound
  | alreadyExists
  | conflict
  | unavailable
deriving DecidableEq, Repr

inductive Verb where
  | getCSMS
  | get (k : Kind)
  | create (k : Kind) (obj : Object k)
  | update (k : Kind) (obj : Object k)
  | delete (k : Kind)
  | updateStatus (csms : CSMSResource)

structure Request where
  key : NamespacedName
  verb : Verb

def Answer : Verb → Type
  | .getCSMS => CSMSResource
  | .get k => Object k
  | .create k _ => Object k
  | .update k _ => Object k
  | .delete _ => Unit
  | .updateStatus _ => CSMSResource

abbrev Reply (request : Request) : Type := Except ApiError (Answer request.verb)

/-- The objects of one name: the CSMS and its children. -/
@[ext]
structure Cell where
  csms : Option CSMSResource := none
  child : (k : Kind) → Option (Object k) := fun _ => none

abbrev Cluster := NamespacedName → Cell

def Cell.setChild (cell : Cell) (k : Kind) (obj : Option (Object k)) : Cell :=
  { cell with child := Function.update cell.child k obj }

/-- What an update leaves of the object it replaces. The status is not part of it, and nothing is
written when nothing changes. -/
def Object.replace {k : Kind} (current obj : Object k) : Object k :=
  if { obj with status := current.status } = current then current
  else { obj with status := current.status, resourceVersion := current.resourceVersion+1 }

def CSMSResource.writeStatus (current : CSMSResource) (status : CSMSStatus) : CSMSResource :=
  if status = current.status then current
  else { current with status := status, resourceVersion := current.resourceVersion+1 }

def perform (request : Request) (cell : Cell) : Reply request × Cell :=
  match request with
  | ⟨_,.getCSMS⟩ =>
    match cell.csms with
    | none => (.error .notFound,cell)
    | some csms => (.ok csms,cell)
  | ⟨_,.get k⟩ =>
    match cell.child k with
    | none => (.error .notFound,cell)
    | some obj => (.ok obj,cell)
  | ⟨_,.create k obj⟩ =>
    match cell.child k with
    | some _ => (.error .alreadyExists,cell)
    | none =>
      let stored := { obj with status := default, resourceVersion := 1 }
      (.ok stored,cell.setChild k (some stored))
  | ⟨_,.update k obj⟩ =>
    match cell.child k with
    | none => (.error .notFound,cell)
    | some current =>
      if obj.resourceVersion = current.resourceVersion then
        (.ok (current.replace obj),cell.setChild k (some (current.replace obj)))
      else (.error .conflict,cell)
  | ⟨_,.delete k⟩ =>
    match cell.child k with
    | none => (.error .notFound,cell)
    | some _ => (.ok (),cell.setChild k none)
  | ⟨_,.updateStatus csms⟩ =>
    match cell.csms with
    | none => (.error .notFound,cell)
    | some current =>
      if csms.resourceVersion = current.resourceVersion then
        (.ok (current.writeStatus csms.status),
          { cell with csms := some (current.writeStatus csms.status) })
      else (.error .conflict,cell)

/-- How a call fares: it is answered, it fails, or it takes effect and its answer is lost. -/
inductive Outcome where
  | answered
  | failed
  | lost
deriving DecidableEq, Repr

def serve (request : Request) (outcome : Outcome) (cell : Cell) : Reply request × Cell :=
  match outcome with
  | .answered => perform request cell
  | .failed => (.error .unavailable,cell)
  | .lost => (.error .unavailable,(perform request cell).2)

/-! ## The reconciler -/

/-- Why a step of the reconciler fails. -/
inductive Cause where
  | api (err : ApiError)
  | alreadyOwned
deriving DecidableEq, Repr

structure ReconcileError where
  context : String
  cause : Cause
deriving DecidableEq, Repr

abbrev Client := Program Request Reply

def send (key : NamespacedName) (verb : Verb) : Client (Except ApiError (Answer verb)) :=
  ask (Request.mk key verb)

def getCSMS (key : NamespacedName) : Client (Except ApiError CSMSResource) := send key .getCSMS

def getObject (key : NamespacedName) (k : Kind) : Client (Except ApiError (Object k)) :=
  send key (.get k)

def createObject (key : NamespacedName) {k : Kind} (obj : Object k) :
    Client (Except ApiError (Object k)) := send key (.create k obj)

def updateObject (key : NamespacedName) {k : Kind} (obj : Object k) :
    Client (Except ApiError (Object k)) := send key (.update k obj)

def deleteObject (key : NamespacedName) (k : Kind) : Client (Except ApiError Unit) :=
  send key (.delete k)

def statusUpdate (key : NamespacedName) (csms : CSMSResource) :
    Client (Except ApiError CSMSResource) := send key (.updateStatus csms)

def labelName : String := "app.kubernetes.io/name"
def labelInstance : String := "app.kubernetes.io/instance"
def componentName : String := "csms-runtime"
def defaultPort : Int32 := 8080
def defaultLivenessPath : String := "/livez"
def defaultReadinessPath : String := "/readyz"
def defaultTerminationGracePeriodSeconds : Int64 := 30
def tlsServerVolumeName : String := "tls-server"
def tlsServerMountPath : String := "/etc/csms/tls/server"
def tlsCAVolumeName : String := "tls-ca"
def tlsCAMountPath : String := "/etc/csms/tls/ca"

/-- The label map that `Reconcile` builds and every child shares. -/
def labelsOf (key : NamespacedName) : StringMap :=
  [(labelInstance,key.name),(labelName,componentName)]

/-- The CSMS controls the object from now on, unless another object controls it. -/
def claimObject (lib : MetaLibrary) (csms : CSMS) {k : Kind} (write : Fields k → Fields k)
    (obj : Object k) : Except Cause (Object k) :=
  match lib.setControllerReference csms.controllerRef obj.ownerReferences with
  | none => .error .alreadyOwned
  | some refs => .ok { obj with fields := write obj.fields, ownerReferences := refs }

/-- `CreateOrUpdate` with a mutate function that writes the fields and sets the controller reference. -/
def createOrUpdate (lib : MetaLibrary) (csms : CSMS) (k : Kind) (write : Fields k → Fields k) :
    Client (Except Cause (Object k)) := do
  match ← getObject csms.toNamespacedName k with
  | .error .notFound =>
    match claimObject lib csms write {} with
    | .error cause => pure (.error cause)
    | .ok obj => return (← createObject csms.toNamespacedName obj).mapError .api
  | .error err => pure (.error (.api err))
  | .ok existing =>
    match claimObject lib csms write existing with
    | .error cause => pure (.error cause)
    | .ok obj =>
      if existing = obj then pure (.ok obj)
      else return (← updateObject csms.toNamespacedName obj).mapError .api

def ignoreNotFound : Except ApiError Unit → Except Cause Unit
  | .error .notFound => .ok ()
  | .error err => .error (.api err)
  | .ok _ => .ok ()

def deleteIgnoringNotFound (csms : CSMS) (k : Kind) : Client (Except Cause Unit) :=
  return ignoreNotFound (← deleteObject csms.toNamespacedName k)

def writeConfigMap (csms : CSMS) (labels : StringMap) (cm : ConfigMap) : ConfigMap :=
  { cm with labels := labels, data := csms.spec.config }

def reconcileConfigMap (lib : MetaLibrary) (csms : CSMS) (labels : StringMap) :
    Client (Except Cause (Object .configMap)) :=
  createOrUpdate lib csms .configMap (writeConfigMap csms labels)

def httpPort (csms : CSMS) : Int32 :=
  if csms.spec.port ≠ 0 then csms.spec.port else defaultPort

def livenessPath (csms : CSMS) : String :=
  if csms.spec.livenessPath ≠ "" then csms.spec.livenessPath else defaultLivenessPath

def readinessPath (csms : CSMS) : String :=
  if csms.spec.readinessPath ≠ "" then csms.spec.readinessPath else defaultReadinessPath

def terminationGracePeriodSeconds (csms : CSMS) : Int64 :=
  match csms.spec.terminationGracePeriodSeconds with
  | some seconds => seconds
  | none => defaultTerminationGracePeriodSeconds

def probeScheme (csms : CSMS) : URIScheme :=
  match csms.spec.tls with
  | some _ => .https
  | none => .http

def tlsVolumes (csms : CSMS) : List Volume × List VolumeMount :=
  match csms.spec.tls with
  | none => ([],[])
  | some tls =>
    let volumes := [{ name := tlsServerVolumeName, secret := some tls.secretName }]
    let mounts := [{ name := tlsServerVolumeName, mountPath := tlsServerMountPath, readOnly := true }]
    if tls.clientCASecretName ≠ "" then
      (volumes++[{ name := tlsCAVolumeName, secret := some tls.clientCASecretName }],
        mounts++[{ name := tlsCAVolumeName, mountPath := tlsCAMountPath, readOnly := true }])
    else (volumes,mounts)

def writeService (csms : CSMS) (labels : StringMap) (svc : Service) : Service :=
  { svc with
    labels := labels
    selector := labels
    ports := [{ name := "http", port := httpPort csms, targetPort := .string "http" }] }

def reconcileService (lib : MetaLibrary) (csms : CSMS) (labels : StringMap) :
    Client (Except Cause (Object .service)) :=
  createOrUpdate lib csms .service (writeService csms labels)

/-- The replica count that `reconcileDeployment` writes and `updateStatus` compares with. -/
def desiredReplicas (csms : CSMS) : Int32 :=
  match csms.spec.replicas with
  | some replicas => replicas
  | none => 1

def containerResources (csms : CSMS) : ContainerResources :=
  let resources := csms.spec.resources
  if resources.requests = none ∧ resources.limits = none then
    { requests := [("cpu",.milli 50),("memory",.mebi 64)]
      limits := [("cpu",.milli 500),("memory",.mebi 256)]
      claims := [] }
  else
    { requests := resources.requests.getD []
      limits := resources.limits.getD []
      claims := resources.claims }

def containerEnvFrom (csms : CSMS) : List EnvFromSource :=
  let secretNames := [csms.spec.databaseSecretName,csms.spec.redisSecretName,csms.spec.apiSecretName]
  { configMapRef := some csms.name }::(secretNames.filter (· ≠ "")).map fun secretName =>
    { secretRef := some { name := secretName, optional := some true } }

def writeDeployment (csms : CSMS) (labels : StringMap) (deployment : Deployment) : Deployment :=
  { deployment with
    labels := labels
    replicas := some (desiredReplicas csms)
    selector := some { matchLabels := labels }
    template := {
      labels := labels
      terminationGracePeriodSeconds := some (terminationGracePeriodSeconds csms)
      volumes := (tlsVolumes csms).1
      containers := [{
        name := "runtime"
        image := csms.spec.image
        imagePullPolicy := .ifNotPresent
        envFrom := containerEnvFrom csms
        env := [{ name := "CSMS_INSTANCE_ID", fieldRef := some "metadata.name" }]
        ports := [{ name := "http", containerPort := httpPort csms }]
        volumeMounts := (tlsVolumes csms).2
        readinessProbe := some {
          path := readinessPath csms
          port := .string "http"
          scheme := probeScheme csms
          periodSeconds := 5 }
        livenessProbe := some {
          path := livenessPath csms
          port := .string "http"
          scheme := probeScheme csms
          periodSeconds := 10 }
        resources := containerResources csms }] } }

def reconcileDeployment (lib : MetaLibrary) (csms : CSMS) (labels : StringMap) :
    Client (Except Cause (Object .deployment)) :=
  createOrUpdate lib csms .deployment (writeDeployment csms labels)

def writePodDisruptionBudget (csms : CSMS) (labels : StringMap) (pdb : PodDisruptionBudget) :
    PodDisruptionBudget :=
  { pdb with
    labels := labels
    minAvailable := csms.spec.minAvailable
    selector := some { matchLabels := labels } }

def reconcilePodDisruptionBudget (lib : MetaLibrary) (csms : CSMS) (labels : StringMap) :
    Client (Except Cause Unit) :=
  match csms.spec.minAvailable with
  | none => deleteIgnoringNotFound csms .podDisruptionBudget
  | some _ => do
    let written ← createOrUpdate lib csms .podDisruptionBudget (writePodDisruptionBudget csms labels)
    return written.map fun _ => ()

def writeIngress (csms : CSMS) (spec : CSMSIngress) (labels : StringMap) (ingress : Ingress) :
    Ingress :=
  { ingress with
    labels := labels
    annotations := spec.annotations
    ingressClassName := if spec.ingressClassName ≠ "" then some spec.ingressClassName else none
    rules := [{
      host := spec.host
      http := some [{
        path := "/"
        pathType := some .pathTypePrefix
        service := some { name := csms.name, portName := "http" } }] }]
    tls := if spec.tlsSecretName ≠ "" then
        [{ hosts := [spec.host], secretName := spec.tlsSecretName }]
      else [] }

def reconcileIngress (lib : MetaLibrary) (csms : CSMS) (labels : StringMap) :
    Client (Except Cause Unit) :=
  match csms.spec.ingress with
  | none => deleteIgnoringNotFound csms .ingress
  | some spec => do
    let written ← createOrUpdate lib csms .ingress (writeIngress csms spec labels)
    return written.map fun _ => ()

def availableCondition (csms : CSMS) (deployment : DeploymentStatus) : Condition where
  type := csmsConditionAvailable
  status := if deployment.readyReplicas > 0 then .isTrue else .isFalse
  observedGeneration := csms.generation
  lastTransitionTime := 0
  reason := if deployment.readyReplicas > 0 then "ReplicasReady" else "NoReadyReplicas"
  message := if deployment.readyReplicas > 0 then
      s!"{deployment.readyReplicas.toInt}/{(desiredReplicas csms).toInt} replicas ready"
    else "no Runtime replica is ready"

def progressingCondition (csms : CSMS) (deployment : DeploymentStatus) : Condition where
  type := csmsConditionProgressing
  status := if deployment.readyReplicas = desiredReplicas csms then .isFalse else .isTrue
  observedGeneration := csms.generation
  lastTransitionTime := 0
  reason := if deployment.readyReplicas = desiredReplicas csms then "ReplicasReady"
    else "ReplicasNotReady"
  message := s!"{deployment.readyReplicas.toInt}/{(desiredReplicas csms).toInt} replicas ready"

/-- The status that `updateStatus` puts together at an instant. -/
def observedStatus (lib : MetaLibrary) (csms : CSMS) (deployment : DeploymentStatus) (now : Int) :
    CSMSStatus where
  replicas := deployment.replicas
  readyReplicas := deployment.readyReplicas
  observedGeneration := csms.generation
  conditions := lib.setStatusCondition (progressingCondition csms deployment) now
    (lib.setStatusCondition (availableCondition csms deployment) now csms.status.conditions)

def updateStatus (lib : MetaLibrary) (csms : CSMS) (deployment : Object .deployment) (now : Int) :
    Client (Except Cause CSMSResource) := do
  let status := observedStatus lib csms deployment.deploymentStatus now
  return (← statusUpdate csms.toNamespacedName (csms.withStatus status)).mapError .api

/-- `if err != nil { return …, fmt.Errorf(context, err) }`. -/
def orReturn {α β : Type} (context : String) (step : Client (Except Cause α))
    (next : α → Client (Except ReconcileError β)) : Client (Except ReconcileError β) := do
  match ← step with
  | .error cause => pure (.error ⟨context,cause⟩)
  | .ok value => next value

def reconcileOptional (lib : MetaLibrary) (csms : CSMS) (labels : StringMap)
    (deployment : Object .deployment) (now : Int) : Client (Except ReconcileError Unit) :=
  orReturn "reconcile poddisruptionbudget: " (reconcilePodDisruptionBudget lib csms labels) fun _ =>
  orReturn "reconcile ingress: " (reconcileIngress lib csms labels) fun _ =>
  orReturn "update status: " (updateStatus lib csms deployment now) fun _ =>
  pure (.ok ())

def reconcileCSMS (lib : MetaLibrary) (csms : CSMS) (labels : StringMap) (now : Int) :
    Client (Except ReconcileError Unit) :=
  orReturn "reconcile configmap: " (reconcileConfigMap lib csms labels) fun _ =>
  orReturn "reconcile service: " (reconcileService lib csms labels) fun _ =>
  orReturn "reconcile deployment: " (reconcileDeployment lib csms labels) fun deployment =>
  reconcileOptional lib csms labels deployment now

def reconcile (lib : MetaLibrary) (key : NamespacedName) (now : Int) :
    Client (Except ReconcileError Unit) := do
  match ← getCSMS key with
  | .error .notFound => pure (.ok ())
  | .error err => pure (.error ⟨"",.api err⟩)
  | .ok found => reconcileCSMS lib ⟨key,found⟩ (labelsOf key) now

end CsmsPlatform.Controller
