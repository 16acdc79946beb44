import CoinjoinEmulator.Driver.Base64Spool
import CoinjoinEmulator.Driver.Cluster
import CoinjoinEmulator.ProofKit.Sha256
import Mathlib.Data.List.Infix

/-! The Kubernetes driver: what it asks of the API server to start, stop and clean up the
emulator's containers, and to move files in and out of them. -/

namespace CoinjoinEmulator.Driver

open ProofKit ProofKit.Session

/-- The exceptions of the driver.  `outOfPolls` is a wait that the model stops following. -/
inductive Raised where
  | apiException (error : ApiException)
  | quotaError (message : String)
  | startupError (message : String)
  | timeoutError (message : String)
  | runtimeError (message : String)
  | valueError (message : String)
  | attributeError (message : String)
  | indexError (message : String)
  | outOfPolls
deriving DecidableEq

/-- A step of the driver. -/
abbrev Op (F α : Type) := Raising Raised Question (Reply F) α

variable {F : Type}

/-- A request to the API server, whose error answer is raised. -/
def api (request : Request) : Op F (Answer F request) :=
  raising (Question.api request) fun reply => Except.mapError Raised.apiException reply

def monotonic : Op F Rat := raising Question.monotonic Except.ok

def sleep (seconds : Nat) : Op F Unit := raising (Question.sleep seconds) Except.ok

def uuid4 : Op F String := raising Question.uuid4 Except.ok

def serviceAliases : Op F (List (String × String)) := raising Question.serviceAliases Except.ok

def setServiceAlias (name ip : String) : Op F Unit :=
  raising (Question.setServiceAlias name ip) Except.ok

/-! ### Texts -/

/-- `needle in text`. -/
def contains (needle text : String) : Bool := decide (needle.toList <:+: text.toList)

/-- `needle in text.lower()`, for a needle of small ASCII letters and blanks. -/
def containsLower (needle text : String) : Bool :=
  decide (needle.toList <:+: text.toList.map Char.toLower)

/-- `f"{value}"`. -/
def shown (value : Option String) : String := value.getD "None"

/-- The value, if it is truthy. -/
def truthy (value : Option String) : Option String := value.filter fun text => text ≠ ""

/-- The items of a list that are truthy. -/
def truthyItems (values : List (Option String)) : List String := values.filterMap truthy

def managedByLabel : String := "app.kubernetes.io/managed-by"

def managedByValue : String := "coinjoin-emulator"

def runIdLabel : String := "coinjoin.run-id"

def maxResourceNameLength : Nat := 63

def runSuffixLength : Nat := 16

def uploadCommandChunkSize : Nat := 16 * 1024

def reservedPortRange : String := "37127-37260"

def reservedPortsSysctl : String := "net.ipv4.ip_local_reserved_ports"

/-- How long the driver waits, in seconds, and how many polls of a wait the model follows. -/
structure Timeouts where
  podIp : Nat := 1800
  upload : Nat := 120
  stop : Nat := 120
  polls : Nat := 2000

/-- The driver of one run.  The owner's name, uid and namespace come from the environment. -/
structure KubernetesDriver where
  namespaceName : String := "coinjoin"
  reuseNamespace : Bool := false
  pullSecretPath : Option String := none
  inCluster : Bool := false
  runId : Option String := none
  ownerPodName : Option String := none
  ownerPodUid : Option String := none
  ownerPodNamespace : Option String := none
  timeouts : Timeouts := {}

/-! ### Run ids -/

/-- A character that a run id may contain. -/
def isRunIdChar (c : Char) : Bool := c.isAlphanum || c == '.' || c == '_' || c == '-'

/-- Whether the command line accepts a run id. -/
def isRunId (value : String) : Bool :=
  decide (value.length ≤ 63) && !decide ("..".toList <:+: value.toList) &&
    value.toList.all isRunIdChar && value.toList.head?.any Char.isAlphanum &&
    value.toList.getLast?.any Char.isAlphanum

/-- The digits of a run id's digest that a resource name ends with. -/
def runSuffix (runId : String) : List Char := (Sha256.hexdigest runId).take runSuffixLength

namespace KubernetesDriver

variable (driver : KubernetesDriver)

/-! ### Names and labels -/

def resourceLabels (name : String) : List (String × String) :=
  [("app", name), (managedByLabel, managedByValue)] ++
    match truthy driver.runId with
    | some runId => [(runIdLabel, runId)]
    | none => []

def ownerError : Raised :=
  .valueError "controller pod ownership requires a complete identity in the emulator namespace"

def ownerReference : Except Raised (Option OwnerReference) :=
  if driver.inCluster = false then .ok none
  else
    match truthy driver.ownerPodName, truthy driver.ownerPodUid,
      truthy driver.ownerPodNamespace with
    | none, none, none => .ok none
    | some name, some uid, some owner =>
      if owner ≠ driver.namespaceName then .error ownerError else .ok (some ⟨name, uid⟩)
    | _, _, _ => .error ownerError

/-- The pod and Service name of the emulator's `name`: in a shared namespace it ends with the run
suffix. -/
def resourceName (name : String) : String :=
  match driver.reuseNamespace, truthy driver.runId with
  | true, some runId =>
    String.ofList (name.toList.take (maxResourceNameLength - runSuffixLength - 1) ++
      '-' :: runSuffix runId)
  | _, _ => name

def serviceSelector (name : String) : List (String × String) :=
  ("app", name) ::
    match truthy driver.runId with
    | some runId => [(runIdLabel, runId)]
    | none => []

def resourceMetadata (name : String) : Except Raised Metadata := do
  let owner ← driver.ownerReference
  return ⟨driver.resourceName name, driver.resourceLabels name, owner⟩

/-- Select this run's own resources, or every managed one when no run id is set. -/
def cleanupSelector : String :=
  managedByLabel ++ "=" ++ managedByValue ++
    match truthy driver.runId with
    | some runId => "," ++ runIdLabel ++ "=" ++ runId
    | none => ""

/-! ### Starting a container -/

/-- What `run` is called with.  `ports` are pairs of a target port and a container port. -/
structure RunRequest where
  name : String
  image : String
  env : Option (List (String × String)) := none
  ports : Option (List (Nat × Nat)) := none
  runAsUser : Option Nat := none
  runAsGroup : Option Nat := none
  volumes : List HostPathVolume := []
  command : Option (List String) := none

/-- An address, pairs of a target port and the port that reaches it. -/
structure Started where
  address : String
  ports : List (Nat × Nat)
deriving DecidableEq

/-- The Services of this run that a pod with a suffixed name has to know by their plain names. -/
def knownAliases (name : String) : Op F (List (String × String)) :=
  if driver.resourceName name ≠ name then serviceAliases else pure []

def buildPodManifest (request : RunRequest) : Op F PodManifest := do
  let aliases ← driver.knownAliases request.name
  let metadata ← ExceptT.mk (pure (driver.resourceMetadata request.name))
  return {
    metadata
    hostAliases := aliases.map fun entry => (entry.2, entry.1)
    image := request.image
    containerName := driver.resourceName request.name
    containerPorts := (request.ports.getD []).map Prod.fst
    env := request.env.getD []
    volumes := request.volumes
    runAsUser := request.runAsUser
    runAsGroup := request.runAsUser.map fun user => request.runAsGroup.getD user
    command := request.command
    sysctls := [(reservedPortsSysctl, reservedPortRange)]
    imagePullSecret := (truthy driver.pullSecretPath).isSome }

/-- The manifest without the reserved-port sysctl, if it has it. -/
def stripReservedPortsSysctl (manifest : PodManifest) : Option PodManifest :=
  let remaining := manifest.sysctls.filter fun sysctl => sysctl.1 ≠ reservedPortsSysctl
  if remaining.length = manifest.sysctls.length then none
  else some { manifest with sysctls := remaining }

/-- `str(getattr(error, "body", "") or error)`. -/
def details (error : ApiException) : String := if error.body ≠ "" then error.body else error.text

def isSysctlRejection (error : ApiException) : Bool :=
  [400, 403, 422].contains error.status && containsLower "sysctl" (details error)

/-- Create a pod, once more without the sysctl that the API server may not allow; the manifest that
it was created with. -/
def createPod (name : String) (manifest : PodManifest) : Op F PodManifest :=
  tryCatch (do
    api (.createPod manifest)
    return manifest) fun raised =>
    match raised with
    | .apiException error =>
      if error.status = 403 ∧ containsLower "exceeded quota" (details error) = true then
        throw (.quotaError ("Kubernetes quota rejected pod " ++ name ++ " in namespace " ++
          driver.namespaceName ++ ": " ++ details error))
      else if isSysctlRejection error = false then throw raised
      else
        match stripReservedPortsSysctl manifest with
        | none => throw raised
        | some stripped => do
          api (.createPod stripped)
          return stripped
    | _ => throw raised

def terminalPhase (phase : Option String) : Bool :=
  phase == some "Failed" || phase == some "Succeeded"

def terminalError (name : String) (status : PodStatus) : Raised :=
  let detail := " ".intercalate (truthyItems [status.reason, status.message])
  .startupError ("Pod " ++ name ++ " entered terminal phase " ++ shown status.phase ++
    " before receiving an IP" ++ if detail ≠ "" then ": " ++ detail else "")

def pollPodIp (name : String) (deadline : Rat) : Nat → Op F String
  | 0 => throw .outOfPolls
  | polls + 1 => do
    let pod ← api (.readPod name)
    let status := Pod.status pod
    match truthy status.podIp with
    | some ip => return ip
    | none =>
      if terminalPhase status.phase = true then throw (terminalError name status)
      else
        let now ← monotonic
        if deadline ≤ now then
          throw (.timeoutError ("Pod " ++ name ++ " did not receive an IP within " ++
            toString driver.timeouts.podIp ++ "s (last phase: " ++ shown status.phase ++ ")"))
        else
          sleep 1
          pollPodIp name deadline polls

/-- Wait for a scheduled pod's IP, giving up on a terminal pod or a deadline. -/
def waitForPodIp (name : String) : Op F String := do
  let start ← monotonic
  driver.pollPodIp name (start + driver.timeouts.podIp) driver.timeouts.polls

/-! ### Stopping a container -/

/-- Whether a read finds its object; only a 404 says that it does not. -/
def succeeds {α : Type} (read : Op F α) : Op F Bool :=
  tryCatch (do
    let _ ← read
    return true) fun raised =>
    match raised with
    | .apiException error => if error.status = 404 then return false else throw raised
    | _ => throw raised

def pollUntilGone (name : String) (deadline : Rat) : Nat → Op F Unit
  | 0 => throw .outOfPolls
  | polls + 1 => do
    let now ← monotonic
    if now < deadline then
      let pod ← succeeds (api (.readPod name))
      if pod = true then
        sleep 1
        pollUntilGone name deadline polls
      else
        let service ← succeeds (api (.readService name))
        if service = true then
          sleep 1
          pollUntilGone name deadline polls
        else return ()
    else return ()

def waitUntilGone (name : String) : Op F Unit := do
  let start ← monotonic
  pollUntilGone name (start + driver.timeouts.stop) driver.timeouts.polls

/-- Delete the pod and the Service, and wait until the name can be reused. -/
def delete (name : String) : Op F Unit := do
  tryCatch (do
    api (.deletePod name)
    api (.deleteService name)) fun _ => pure ()
  driver.waitUntilGone name

def stop (name : String) : Op F Unit := driver.delete (driver.resourceName name)

/-- Wait for the pod's IP; a pod that the kubelet rejects for the reserved-port sysctl is created
again without it. -/
def waitOrRecreate (resource : String) (manifest : PodManifest) : Op F String :=
  tryCatch (driver.waitForPodIp resource) fun raised =>
    match raised with
    | .startupError message =>
      if contains "SysctlForbidden" message = false then throw raised
      else
        match stripReservedPortsSysctl manifest with
        | none => throw raised
        | some stripped => do
          driver.delete resource
          let _ ← driver.createPod resource stripped
          driver.waitForPodIp resource
    | _ => throw raised

def run (request : RunRequest) : Op F Started := do
  let manifest ← driver.buildPodManifest request
  let resource := driver.resourceName request.name
  let manifest ← driver.createPod resource manifest
  let podIp ← driver.waitOrRecreate resource manifest
  let metadata ← ExceptT.mk (pure (driver.resourceMetadata request.name))
  match request.ports with
  | none => throw (.attributeError "'NoneType' object has no attribute 'items'")
  | some ports =>
    let service ← api (.createService {
      metadata
      selector := driver.serviceSelector request.name
      ports := ports.map fun port =>
        ⟨request.name ++ "-" ++ toString port.2, port.2, port.1⟩ })
    if resource ≠ request.name ∧ Service.clusterIp service ≠ "" then
      setServiceAlias request.name (Service.clusterIp service)
    if driver.inCluster = true then
      return ⟨resource ++ "." ++ driver.namespaceName ++ ".svc.cluster.local", ports⟩
    else
      return ⟨podIp, Service.nodePorts service⟩

/-! ### Commands in a pod -/

def requireExecReady (name : String) : Op F Unit := do
  let pod ← api (.readPod name)
  if truthy (Pod.nodeName pod) = none then
    throw (.runtimeError ("pod " ++ name ++ " is not scheduled onto a node"))
  else if (Pod.status pod).phase ≠ some "Running" then
    throw (.runtimeError ("pod " ++ name ++ " is in phase " ++ shown (Pod.status pod).phase ++
      "; exec requires Running"))
  else return ()

/-- Run a command to its end or its deadline. -/
def execStream (name : String) (command : List String) (action : String) : Op F ExecOutcome :=
  tryCatch (api (.exec name command)) fun raised =>
    match raised with
    | .apiException error => throw (.runtimeError
        ("could not " ++ action ++ " on pod " ++ name ++ ": " ++ error.text))
    | _ => throw raised

/-- Run one command and fail if it wrote to stderr or exited non-zero. -/
def execChecked (name action : String) (command : List String) : Op F Unit := do
  let outcome ← execStream name command action
  if outcome.timedOut = true then throw (.timeoutError ("Timed out: " ++ action))
  else
    let stderr := strip (String.join outcome.stderr)
    if ¬ (outcome.returncode = none ∨ outcome.returncode = some 0) ∨ stderr ≠ "" then
      throw (.runtimeError (action ++ " failed" ++ if stderr ≠ "" then ": " ++ stderr else ""))
    else return ()

def pause (name : String) : Op F Unit :=
  let resource := driver.resourceName name
  execChecked resource ("pause " ++ resource) ["sh", "-c", "kill -STOP -1"]

def unpause (name : String) : Op F Unit :=
  let resource := driver.resourceName name
  execChecked resource ("unpause " ++ resource) ["sh", "-c", "kill -CONT -1"]

def peek (name path : String) : Op F String := do
  let resource := driver.resourceName name
  requireExecReady resource
  let outcome ← execStream resource ["cat", path] ("read " ++ path)
  return String.join outcome.stdout

def logs (name : String) : Op F String := api (.podLog (driver.resourceName name))

/-- The parts of a pod's state, joined by `formatPodStatus`. -/
def conditionDetails (condition : PodCondition) : Option String :=
  if condition.type = "PodScheduled" ∧ condition.status = "False" then
    some ("unschedulable: " ++ shown condition.reason ++ ": " ++ shown condition.message)
  else none

def containerDetails (container : ContainerStatus) : Option String :=
  match container.waiting, container.terminated with
  | some (reason, message), _ =>
    some ("container waiting: " ++ shown reason ++ ": " ++ shown message)
  | none, some (reason, exitCode) =>
    some ("container terminated: " ++ shown reason ++ " (exit code " ++ toString exitCode ++ ")")
  | none, none => none

def formatPodStatus (status : PodStatus) : Option String :=
  status.phase.map fun phase => "; ".intercalate
    (["pod phase " ++ phase] ++ truthyItems [status.reason, status.message] ++
      status.conditions.filterMap conditionDetails ++
      status.containerStatuses.filterMap containerDetails)

def containerState (name : String) : Op F (Option String) :=
  tryCatch (do
    let pod ← api (.readPod (driver.resourceName name))
    return formatPodStatus (Pod.status pod)) fun _ => pure none

/-! ### Downloads -/

/-- A character that `shlex.quote` leaves as it is. -/
def isShellSafe (c : Char) : Bool :=
  c.isAlphanum || ['@', '%', '+', '=', ':', ',', '.', '/', '-', '_'].contains c

/-- `shlex.quote(text)`. -/
def quote (text : String) : String :=
  if text = "" then "''"
  else if text.toList.all isShellSafe = true then text
  else "'" ++ String.ofList (text.toList.flatMap fun c =>
    if c = '\'' then "'\"'\"'".toList else [c]) ++ "'"

/-- `os.path.split(path)`. -/
def splitPath (path : String) : String × String :=
  let tail := (path.toList.reverse.takeWhile (· ≠ '/')).reverse
  let head := path.toList.take (path.toList.length - tail.length)
  let stripped := (head.reverse.dropWhile (· = '/')).reverse
  (String.ofList (if stripped = [] then head else stripped), String.ofList tail)

/-- A warning of `tar` that loses nothing. -/
def isBenignWarning (line : List Char) : Bool :=
  let between (start final : String) := start.toList.isPrefixOf line &&
    final.toList.isSuffixOf line && decide (start.length + final.length ≤ line.length)
  let quotes := ["", "`", "'", "\""]
  between "tar: " ": file changed as we read it" || between "tar: " ": socket ignored" ||
    ["member names", "hard link targets"].any fun final => quotes.any fun q => quotes.any fun q' =>
      ("tar: Removing leading " ++ q ++ "/" ++ q' ++ " from " ++ final).toList == line

/-- A character that `str.splitlines` splits at. -/
def isLineBreak (c : Char) : Bool :=
  [0x0a, 0x0b, 0x0c, 0x0d, 0x1c, 0x1d, 0x1e, 0x85, 0x2028, 0x2029].contains c.toNat

def checkTarStderr (name srcPath stderr : String) : Except Raised Unit :=
  (stderr.toList.splitOnP isLineBreak).forM fun rawLine =>
    let line := strip (String.ofList rawLine)
    if line = "" ∨ isBenignWarning line.toList = true then .ok ()
    else .error (.runtimeError ("download of " ++ name ++ ":" ++ srcPath ++ " failed: " ++ line))

/-- The bytes of the archive that was read, if the text is base64 and not empty. -/
def spooled (name srcPath : String) (chunks : List String) : Except Raised (List Base64.Byte) :=
  match (Base64Spool.receive false chunks).run (Base64Spool.init name srcPath) with
  | .ok _ spool => .ok spool.target
  | .error error _ => .error (.runtimeError error.message)

/-- The archive of a path in a container. -/
def download (name srcPath : String) : Op F (List Base64.Byte) := do
  let resource := driver.resourceName name
  requireExecReady resource
  match srcPath.toList.getLast? with
  | none => throw (.indexError "string index out of range")
  | some final =>
    let srcPath := if final = '/' then String.ofList srcPath.toList.dropLast else srcPath
    let (srcParent, srcTarget) := splitPath srcPath
    let outcome ← execStream resource
      ["sh", "-c", "tar cf - -C " ++ quote srcParent ++ " " ++ quote srcTarget ++
        " | base64 | tr -d '\\n'"] ("download " ++ srcPath)
    if outcome.timedOut = true then
      throw (.timeoutError ("Timed out downloading " ++ resource ++ ":" ++ srcPath))
    else
      ExceptT.mk (pure (checkTarStderr resource srcPath (String.join outcome.stderr)))
      ExceptT.mk (pure (spooled resource srcPath outcome.stdout))

/-! ### Uploads -/

/-- Whether the container of a pod runs, from the statuses of its containers. -/
def isRunning (name : String) (phase : Option String) :
    List ContainerStatus → Except Raised Bool
  | [] => .ok false
  | container :: rest =>
    if container.name ≠ name then isRunning name phase rest
    else if container.terminated.isSome = true then
      .error (.startupError ("Cannot upload to pod " ++ name ++ ": container terminated"))
    else if phase = some "Running" ∧ container.running = true then .ok true
    else isRunning name phase rest

def pollRunning (name : String) (deadline : Rat) : Nat → Op F Unit
  | 0 => throw .outOfPolls
  | polls + 1 => do
    let pod ← api (.readPod name)
    let status := Pod.status pod
    if terminalPhase status.phase = true then
      throw (.startupError ("Cannot upload to pod " ++ name ++ ": terminal phase " ++
        shown status.phase))
    else
      let running ← ExceptT.mk (pure (isRunning name status.phase status.containerStatuses))
      if running = true then return ()
      else
        let now ← monotonic
        if deadline ≤ now then
          throw (.timeoutError ("Timed out waiting to upload to pod " ++ name ++
            ": container is not running (phase " ++ shown status.phase ++ ")"))
        else
          sleep 1
          pollRunning name deadline polls

def waitForRunningContainer (name : String) : Op F Unit := do
  let start ← monotonic
  pollRunning name (start + driver.timeouts.upload) driver.timeouts.polls

/-- The text in pieces of `size` characters. -/
def chunksOf (size : Nat) (text : List Char) : List (List Char) :=
  (List.range ((text.length + size - 1) / size)).map fun i => (text.drop (i * size)).take size

def uploadAction (name dstPath : String) : String := "upload to " ++ name ++ ":" ++ dstPath

def appendCommand (remotePayload : String) (chunk : List Char) (redirect : String) : List String :=
  ["sh", "-c", "printf \"%s\" \"$1\" " ++ redirect ++ " \"$2\"", "sh", String.ofList chunk,
    remotePayload]

def extractCommand (remotePayload : String) : List String :=
  ["sh", "-c", "base64 -d \"$1\" | tar xf - -C /; status=$?; rm -f -- \"$1\"; exit \"$status\"",
    "sh", remotePayload]

def removeCommand (remotePayload : String) : List String := ["rm", "-f", "--", remotePayload]

/-- The file that a payload is staged in. -/
def remotePayload (identifier : String) : String :=
  "/tmp/coinjoin-emulator-upload-" ++ identifier ++ ".b64"

/-- The commands that stage a payload and unpack it. -/
def stagingCommands (remotePayload : String) (payload : List Char) : List (List String) :=
  ((chunksOf uploadCommandChunkSize payload).mapIdx fun i chunk =>
    appendCommand remotePayload chunk (if i = 0 then ">" else ">>")) ++
    [extractCommand remotePayload]

/-- Put an archive into a container, in text chunks that a checked command unpacks. -/
def upload (name dstPath : String) (archive : List Base64.Byte) : Op F Unit := do
  let resource := driver.resourceName name
  driver.waitForRunningContainer resource
  let payload := Base64.encode archive
  let identifier ← uuid4
  let path := remotePayload identifier
  tryCatch
    ((stagingCommands path payload).forM fun command =>
      execChecked resource (uploadAction resource dstPath) command) fun raised => do
    tryCatch (execChecked resource (uploadAction resource dstPath) (removeCommand path))
      fun _ => pure ()
    throw raised

/-! ### Cleaning up -/

/-- A request whose error answer is only reported. -/
def reported (request : Request) : Op F Unit :=
  tryCatch (do
    let _ ← api request
    return ()) fun raised =>
    match raised with
    | .apiException _ => return ()
    | _ => throw raised

/-- What is listed, unless the API server answers with an error. -/
def listed (selector : String) : Op F (Option (List (Pod F))) :=
  tryCatch (do
    let pods ← api (.listPods selector)
    return some pods) fun raised =>
    match raised with
    | .apiException _ => return none
    | _ => throw raised

def cleanup : Op F Unit := do
  let managed := driver.cleanupSelector
  match ← listed managed with
  | none => return ()
  | some pods =>
    pods.forM fun pod => reported (.deletePod pod.name)
    let services ← api (.listServices managed)
    List.forM (services : List Service) fun service => reported (.deleteService service.name)
    if driver.reuseNamespace = false then reported .deleteNamespace

/-! ### What the engine asks of the driver -/

inductive Operation where
  | run (request : RunRequest)
  | stop (name : String)
  | pause (name : String)
  | unpause (name : String)
  | peek (name path : String)
  | logs (name : String)
  | containerState (name : String)
  | download (name srcPath : String)
  | upload (name dstPath : String) (archive : List Base64.Byte)
  | cleanup

def OperationResult : Operation → Type
  | .run _ => Except Raised Started
  | .stop _ | .pause _ | .unpause _ | .upload _ _ _ | .cleanup => Except Raised Unit
  | .peek _ _ | .logs _ => Except Raised String
  | .containerState _ => Except Raised (Option String)
  | .download _ _ => Except Raised (List Base64.Byte)

def operation : (op : Operation) → Session Question (Reply F) (OperationResult op)
  | .run request => (driver.run request).run
  | .stop name => (driver.stop name).run
  | .pause name => (driver.pause name).run
  | .unpause name => (driver.unpause name).run
  | .peek name path => (driver.peek name path).run
  | .logs name => (driver.logs name).run
  | .containerState name => (driver.containerState name).run
  | .download name srcPath => (driver.download name srcPath).run
  | .upload name dstPath archive => (driver.upload name dstPath archive).run
  | .cleanup => driver.cleanup.run

end KubernetesDriver

end CoinjoinEmulator.Driver
