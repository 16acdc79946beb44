import CoinjoinEmulator.ProofKit.Registry
import CoinjoinEmulator.ProofKit.Session
import Mathlib.Algebra.Order.Ring.Rat

/-! A Kubernetes namespace as its API server shows it to the drivers that share it: the pods and
the Services, the requests, and what happens to them between two requests. -/

namespace CoinjoinEmulator.Driver

open ProofKit

/-- An error answer of the API server; `text` is `str(error)`. -/
structure ApiException where
  status : Nat
  body : String
  text : String
deriving DecidableEq

/-- The pod that owns what a driver creates. -/
structure OwnerReference where
  name : String
  uid : String
deriving DecidableEq

structure Metadata where
  name : String
  labels : List (String × String)
  ownerReference : Option OwnerReference
deriving DecidableEq

structure HostPathVolume where
  hostPath : String
  mountPath : String
  readOnly : Bool
deriving DecidableEq

/-- `hostAliases` are pairs of an address and a host name. -/
structure PodManifest where
  metadata : Metadata
  hostAliases : List (String × String)
  image : String
  containerName : String
  containerPorts : List Nat
  env : List (String × String)
  volumes : List HostPathVolume
  runAsUser : Option Nat
  runAsGroup : Option Nat
  command : Option (List String)
  sysctls : List (String × String)
  imagePullSecret : Bool
deriving DecidableEq

structure ServicePort where
  name : String
  port : Nat
  targetPort : Nat
deriving DecidableEq

structure ServiceManifest where
  metadata : Metadata
  selector : List (String × String)
  ports : List ServicePort
deriving DecidableEq

structure PodCondition where
  type : String
  status : String
  reason : Option String
  message : Option String
deriving DecidableEq

/-- `waiting` has a reason and a message, `terminated` a reason and an exit code. -/
structure ContainerStatus where
  name : String
  waiting : Option (Option String × Option String) := none
  running : Bool := false
  terminated : Option (Option String × Nat) := none
deriving DecidableEq

structure PodStatus where
  phase : Option String := some "Pending"
  podIp : Option String := none
  reason : Option String := none
  message : Option String := none
  conditions : List PodCondition := []
  containerStatuses : List ContainerStatus := []
deriving DecidableEq

/-- A pod.  `contents` is what its container holds. -/
structure Pod (F : Type) where
  manifest : PodManifest
  status : PodStatus
  nodeName : Option String
  terminating : Bool
  contents : F

/-- A Service.  `nodePorts` are pairs of a target port and a node port. -/
structure Service where
  manifest : ServiceManifest
  clusterIp : String
  nodePorts : List (Nat × Nat)

def Pod.name {F : Type} (pod : Pod F) : String := pod.manifest.metadata.name

def Service.name (service : Service) : String := service.manifest.metadata.name

structure Cluster (F : Type) where
  pods : List (Pod F)
  services : List Service

/-- What a command that was run in a pod put out.  A command that is still running at its deadline
has timed out, and has no return code. -/
structure ExecOutcome where
  stdout : List String := []
  stderr : List String := []
  returncode : Option Nat := some 0
  timedOut : Bool := false
deriving DecidableEq

/-- What the containers do: what they start with, what a command does in them, and their logs. -/
structure Containers (F : Type) where
  fresh : PodManifest → F
  execute : List String → F → ExecOutcome × F
  log : F → String

/-! ### Requests -/

inductive Request where
  | createPod (manifest : PodManifest)
  | createService (manifest : ServiceManifest)
  | readPod (name : String)
  | readService (name : String)
  | deletePod (name : String)
  | deleteService (name : String)
  | listPods (selector : String)
  | listServices (selector : String)
  | exec (name : String) (command : List String)
  | podLog (name : String)
  | deleteNamespace

/-- The answer to a request that succeeds. -/
def Answer (F : Type) : Request → Type
  | .createPod _ => Unit
  | .createService _ => Service
  | .readPod _ => Pod F
  | .readService _ => Service
  | .deletePod _ => Unit
  | .deleteService _ => Unit
  | .listPods _ => List (Pod F)
  | .listServices _ => List Service
  | .exec _ _ => ExecOutcome
  | .podLog _ => String
  | .deleteNamespace => Unit

/-- What a driver asks: a request to the API server, or for something of its own process. -/
inductive Question where
  | api (request : Request)
  | monotonic
  | sleep (seconds : Nat)
  | uuid4
  | serviceAliases
  | setServiceAlias (name ip : String)

def Reply (F : Type) : Question → Type
  | .api request => Except ApiException (Answer F request)
  | .monotonic => Rat
  | .sleep _ => Unit
  | .uuid4 => String
  | .serviceAliases => List (String × String)
  | .setServiceAlias _ _ => Unit

/-- What decides the answer to one question besides the state: whether the API server answers with
a fault, and then whether it acted all the same, the addresses it gives out, whether a command
reaches its deadline, the clock and the identifier that is drawn. -/
structure Turn where
  fault : Option ApiException := none
  performed : Bool := true
  clusterIp : String := ""
  nodePort : Nat → Nat := fun port => port
  timedOut : Bool := false
  clock : Rat := 0
  uuid : String := ""

/-- A term `label=value`. -/
def selectorTerm (term : List Char) : String × String :=
  (String.ofList (term.takeWhile (· != '=')), String.ofList ((term.dropWhile (· != '=')).drop 1))

/-- The terms of an equality-based label selector. -/
def selectorTerms (selector : String) : List (String × String) :=
  (selector.toList.splitOn ',').map selectorTerm

/-- Whether a label selector selects an object with these labels. -/
def selects (selector : String) (labels : List (String × String)) : Bool :=
  (selectorTerms selector).all fun term => labels.lookup term.1 == some term.2

def notFound (name : String) : ApiException := ⟨404, "\"" ++ name ++ "\" not found", "(404)"⟩

def alreadyExists (name : String) : ApiException :=
  ⟨409, "\"" ++ name ++ "\" already exists", "(409)"⟩

section Requests

variable {F : Type}

def Cluster.pod (cluster : Cluster F) (name : String) : Option (Pod F) :=
  Registry.find Pod.name name cluster.pods

def Cluster.service (cluster : Cluster F) (name : String) : Option Service :=
  Registry.find Service.name name cluster.services

def Cluster.hasPod (cluster : Cluster F) (name : String) : Bool :=
  Registry.holds Pod.name name cluster.pods

def Cluster.hasService (cluster : Cluster F) (name : String) : Bool :=
  Registry.holds Service.name name cluster.services

def Cluster.addPod (cluster : Cluster F) (pod : Pod F) : Cluster F :=
  { cluster with pods := cluster.pods ++ [pod] }

def Cluster.addService (cluster : Cluster F) (service : Service) : Cluster F :=
  { cluster with services := cluster.services ++ [service] }

/-- Change the pod of a name, or remove it. -/
def Cluster.changePod (cluster : Cluster F) (name : String) (f : Pod F → Option (Pod F)) :
    Cluster F :=
  { cluster with pods := Registry.change Pod.name name f cluster.pods }

def Cluster.removeService (cluster : Cluster F) (name : String) : Cluster F :=
  { cluster with
    services := Registry.change Service.name name (fun _ => none) cluster.services }

/-- A command in a container.  One that times out may or may not have had its effect. -/
def runCommand (containers : Containers F) (turn : Turn) (command : List String) (contents : F) :
    ExecOutcome × F :=
  let (outcome, after) := containers.execute command contents
  if turn.timedOut = true then
    ({ outcome with returncode := none, timedOut := true },
      if turn.performed = true then after else contents)
  else (outcome, after)

/-- What a request answers and does when it meets no fault.  A pod that is deleted is there until
it has terminated; a Service is gone at once. -/
def serve (containers : Containers F) (turn : Turn) :
    (request : Request) → Cluster F → Except ApiException (Answer F request) × Cluster F
  | .createPod manifest, cluster =>
    if cluster.hasPod manifest.metadata.name = true then
      (.error (alreadyExists manifest.metadata.name), cluster)
    else
      (.ok (), cluster.addPod ⟨manifest, {}, none, false, containers.fresh manifest⟩)
  | .createService manifest, cluster =>
    if cluster.hasService manifest.metadata.name = true then
      (.error (alreadyExists manifest.metadata.name), cluster)
    else
      let service : Service := ⟨manifest, turn.clusterIp,
        manifest.ports.map fun port => (port.targetPort, turn.nodePort port.targetPort)⟩
      (.ok service, cluster.addService service)
  | .readPod name, cluster =>
    (match cluster.pod name with
      | some pod => .ok pod
      | none => .error (notFound name), cluster)
  | .readService name, cluster =>
    (match cluster.service name with
      | some service => .ok service
      | none => .error (notFound name), cluster)
  | .deletePod name, cluster =>
    if cluster.hasPod name = true then
      (.ok (), cluster.changePod name fun pod => some { pod with terminating := true })
    else (.error (notFound name), cluster)
  | .deleteService name, cluster =>
    if cluster.hasService name = true then
      (.ok (), cluster.removeService name)
    else (.error (notFound name), cluster)
  | .listPods selector, cluster =>
    (.ok (cluster.pods.filter fun pod => selects selector pod.manifest.metadata.labels), cluster)
  | .listServices selector, cluster =>
    (.ok (cluster.services.filter fun service =>
      selects selector service.manifest.metadata.labels), cluster)
  | .exec name command, cluster =>
    match cluster.pod name with
    | none => (.error (notFound name), cluster)
    | some pod =>
      (.ok (runCommand containers turn command pod.contents).1,
        cluster.changePod name fun pod =>
          some { pod with contents := (runCommand containers turn command pod.contents).2 })
  | .podLog name, cluster =>
    (match cluster.pod name with
      | some pod => .ok (containers.log pod.contents)
      | none => .error (notFound name), cluster)
  | .deleteNamespace, _ => (.ok (), ⟨[], []⟩)

end Requests

/-! ### Drivers that share a namespace -/

/-- The namespace, and what each driver's process remembers of its Services. -/
structure Shared (O F : Type) where
  cluster : Cluster F
  serviceAliases : O → List (String × String)

/-- What happens between two requests: the kubelet reports on a pod, the processes in a pod go on,
and a pod or a Service goes away. -/
inductive Event (F : Type) where
  | podStatus (name : String) (status : PodStatus) (nodeName : Option String)
  | podContents (name : String) (contents : F)
  | podGone (name : String)
  | serviceGone (name : String)

def Event.name {F : Type} : Event F → String
  | podStatus name _ _ | podContents name _ | podGone name | serviceGone name => name

def Event.apply {F : Type} (cluster : Cluster F) : Event F → Cluster F
  | podStatus name status nodeName =>
    cluster.changePod name fun pod => some { pod with status, nodeName }
  | podContents name contents => cluster.changePod name fun pod => some { pod with contents }
  | podGone name => cluster.changePod name fun _ => none
  | serviceGone name => cluster.removeService name

/-- `members[key] = value`. -/
def setItem (members : List (String × String)) (key value : String) : List (String × String) :=
  if members.any (fun member => member.1 == key) = true then
    members.map fun member => if member.1 = key then (key, value) else member
  else members ++ [(key, value)]

/-- The API server and the process of each driver. -/
def host {O F : Type} [DecidableEq O] (containers : Containers F) :
    Host (Shared O F) Question (Reply F) O Turn (Event F) where
  answer o turn question shared :=
    match question with
    | .api request =>
      let (answer, cluster) := serve containers turn request shared.cluster
      match turn.fault with
      | none => (answer, { shared with cluster })
      | some fault =>
        (.error fault, if turn.performed = true then { shared with cluster } else shared)
    | .monotonic => (turn.clock, shared)
    | .sleep _ => ((), shared)
    | .uuid4 => (turn.uuid, shared)
    | .serviceAliases => (shared.serviceAliases o, shared)
    | .setServiceAlias name ip =>
      ((), { shared with
        serviceAliases := Function.update shared.serviceAliases o
          (setItem (shared.serviceAliases o) name ip) })
  outside event shared := { shared with cluster := event.apply shared.cluster }

end CoinjoinEmulator.Driver
