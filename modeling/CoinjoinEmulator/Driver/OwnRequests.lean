import CoinjoinEmulator.Driver.RunNames

/-! A driver in a shared namespace asks for its own run's resources only, whatever the API server
answers. -/

namespace CoinjoinEmulator.Driver

open ProofKit ProofKit.Session KubernetesDriver

/-- Metadata of a resource that is named and labelled for a run. -/
def OwnMetadata (runId : String) (metadata : Metadata) : Prop :=
  ownsName runId metadata.name = true ∧ metadata.labels.lookup runIdLabel = some runId

/-- The questions of a run: it creates resources that are named and labelled for it, addresses
names of its own, and lists by a selector of its label. -/
def Allowed (runId : String) : Question → Prop
  | .api (.createPod manifest) => OwnMetadata runId manifest.metadata
  | .api (.createService manifest) => OwnMetadata runId manifest.metadata
  | .api (.readPod name) | .api (.readService name) | .api (.deletePod name)
  | .api (.deleteService name) | .api (.exec name _) | .api (.podLog name) =>
    ownsName runId name = true
  | .api (.listPods selector) | .api (.listServices selector) =>
    ∀ labels, selects selector labels = true → labels.lookup runIdLabel = some runId
  | .api .deleteNamespace => False
  | .monotonic | .sleep _ | .uuid4 | .serviceAliases | .setServiceAlias _ _ => True

variable {F : Type}

/-- The answers to a run's questions: what is listed has names of its own. -/
def Given (runId : String) : (question : Question) → Reply F question → Prop
  | .api (.listPods _), reply =>
    ∀ pods : List (Pod F), reply = .ok pods → ∀ pod ∈ pods, ownsName runId pod.name = true
  | .api (.listServices _), reply =>
    ∀ services : List Service, reply = .ok services →
      ∀ service ∈ services, ownsName runId service.name = true
  | _, _ => True

/-- Every question of a step is the run's own. -/
def Own {α : Type} (runId : String) (step : Op F α) (post : α → Prop) : Prop :=
  Asks (Allowed runId) (Given runId) step post

section Steps

variable {runId : String}

theorem own_api (request : Request) {post : Answer F request → Prop}
    (h : Allowed runId (.api request))
    (hpost : ∀ answer, Given runId (.api request) (.ok answer) → post answer) :
    Own runId (api request) post :=
  asks_raising _ h fun reply answer hgiven heq => by
    cases reply with
    | ok found =>
      obtain rfl : found = answer := by simpa [Except.mapError] using heq
      exact hpost found hgiven
    | error error => simp [Except.mapError] at heq

theorem own_api' (request : Request) (h : Allowed runId (.api request)) :
    Own (F := F) runId (api request) fun _ => True := own_api request h fun _ _ => trivial

theorem own_monotonic : Own (F := F) runId monotonic fun _ => True :=
  asks_raising _ trivial fun _ _ _ _ => trivial

theorem own_sleep (seconds : Nat) : Own (F := F) runId (sleep seconds) fun _ => True :=
  asks_raising _ trivial fun _ _ _ _ => trivial

theorem own_uuid4 : Own (F := F) runId uuid4 fun _ => True :=
  asks_raising _ trivial fun _ _ _ _ => trivial

theorem own_serviceAliases : Own (F := F) runId serviceAliases fun _ => True :=
  asks_raising _ trivial fun _ _ _ _ => trivial

theorem own_setServiceAlias (name ip : String) :
    Own (F := F) runId (setServiceAlias name ip) fun _ => True :=
  asks_raising _ trivial fun _ _ _ _ => trivial

/-- A result that was computed without a question. -/
theorem own_result {α : Type} {result : Except Raised α} (post : α → Prop)
    (h : ∀ a, result = .ok a → post a) :
    Own (F := F) runId (ExceptT.mk (pure result)) post := h

theorem own_succeeds {α : Type} {read : Op F α} (h : Own runId read fun _ => True) :
    Own runId (succeeds read) fun _ => True := by
  refine Asks.tryCatch (h.bind fun _ _ => asks_pure trivial) fun raised => ?_
  split
  · split
    · exact asks_pure trivial
    · exact asks_throw _
  · exact asks_throw _

end Steps

section Waits

variable {runId resource : String} (driver : KubernetesDriver)
  (hname : ownsName runId resource = true)

include hname

theorem own_pollPodIp (deadline : Rat) (polls : Nat) :
    Own (F := F) runId (driver.pollPodIp resource deadline polls) fun _ => True := by
  induction polls with
  | zero => exact asks_throw _
  | succ polls ih =>
    unfold pollPodIp
    refine (own_api' (.readPod resource) hname).bind fun pod _ => ?_
    dsimp only
    split
    · exact asks_pure trivial
    · split
      · exact asks_throw _
      · refine own_monotonic.bind fun now _ => ?_
        split
        · exact asks_throw _
        · exact (own_sleep 1).bind fun _ _ => ih

theorem own_waitForPodIp : Own (F := F) runId (driver.waitForPodIp resource) fun _ => True :=
  own_monotonic.bind fun _ _ => own_pollPodIp driver hname _ _

theorem own_pollUntilGone (deadline : Rat) (polls : Nat) :
    Own (F := F) runId (pollUntilGone resource deadline polls) fun _ => True := by
  induction polls with
  | zero => exact asks_throw _
  | succ polls ih =>
    unfold pollUntilGone
    refine own_monotonic.bind fun now _ => ?_
    split
    · refine (own_succeeds (own_api' (.readPod resource) hname)).bind
        fun pod _ => ?_
      split
      · exact (own_sleep 1).bind fun _ _ => ih
      · refine (own_succeeds (own_api' (.readService resource) hname)).bind
          fun service _ => ?_
        split
        · exact (own_sleep 1).bind fun _ _ => ih
        · exact asks_pure trivial
    · exact asks_pure trivial

/-- A stop deletes and reads its own name only, also when a request of it fails. -/
theorem own_delete : Own (F := F) runId (driver.delete resource) fun _ => True := by
  have hdelete : Own (F := F) runId (do
      api (.deletePod resource)
      api (.deleteService resource)) fun _ => True :=
    (own_api' (.deletePod resource) hname).bind fun _ _ =>
      own_api' (.deleteService resource) hname
  exact (hdelete.tryCatch fun _ => asks_pure trivial).bind fun _ _ =>
    own_monotonic.bind fun _ _ => own_pollUntilGone hname _ _

end Waits

/-! ### Pods and Services -/

section Starts

variable {runId : String} {driver : KubernetesDriver} (hrun : driver.InRun runId)

include hrun

theorem ownMetadata_of_resourceMetadata {name : String} {metadata : Metadata}
    (h : driver.resourceMetadata name = .ok metadata) : OwnMetadata runId metadata := by
  unfold resourceMetadata at h
  cases howner : driver.ownerReference with
  | error error =>
    rw [howner] at h
    cases h
  | ok owner =>
    rw [howner] at h
    cases h
    exact ⟨ownsName_resourceName hrun name, lookup_resourceLabels hrun name⟩

theorem own_buildPodManifest (request : RunRequest) :
    Own (F := F) runId (driver.buildPodManifest request)
      fun manifest => OwnMetadata runId manifest.metadata := by
  have haliases : Own (F := F) runId (driver.knownAliases request.name) fun _ => True := by
    unfold knownAliases
    split
    · exact own_serviceAliases
    · exact asks_pure trivial
  refine haliases.bind fun aliases _ => ?_
  exact (own_result (OwnMetadata runId) fun metadata hmetadata =>
    ownMetadata_of_resourceMetadata hrun hmetadata).bind fun metadata hmetadata =>
      asks_pure hmetadata

omit hrun in
theorem ownMetadata_of_strip {manifest stripped : PodManifest}
    (h : OwnMetadata runId manifest.metadata)
    (hstrip : stripReservedPortsSysctl manifest = some stripped) :
    OwnMetadata runId stripped.metadata := by
  unfold stripReservedPortsSysctl at hstrip
  dsimp only at hstrip
  split at hstrip
  · cases hstrip
  · cases hstrip
    exact h

omit hrun in
/-- Both attempts to create a pod are for the run. -/
theorem own_createPod (name : String) {manifest : PodManifest}
    (h : OwnMetadata runId manifest.metadata) :
    Own (F := F) runId (driver.createPod name manifest)
      fun created => OwnMetadata runId created.metadata := by
  have hcreate : ∀ m : PodManifest, OwnMetadata runId m.metadata →
      Own (F := F) runId (do
        api (.createPod m)
        return m) fun created => OwnMetadata runId created.metadata := fun m hm =>
    (own_api' (.createPod m) hm).bind fun _ _ => asks_pure hm
  refine (hcreate manifest h).tryCatch fun raised => ?_
  split
  · split
    · exact asks_throw _
    · split
      · exact asks_throw _
      · split
        · exact asks_throw _
        · exact hcreate _ (ownMetadata_of_strip h ‹_›)
  · exact asks_throw _

theorem own_waitOrRecreate (name : String) {manifest : PodManifest}
    (h : OwnMetadata runId manifest.metadata) :
    Own (F := F) runId (driver.waitOrRecreate (driver.resourceName name) manifest)
      fun _ => True := by
  have hname := ownsName_resourceName hrun name
  refine (own_waitForPodIp driver hname).tryCatch fun raised => ?_
  split
  · split
    · exact asks_throw _
    · split
      · exact asks_throw _
      · exact (own_delete driver hname).bind fun _ _ =>
          (own_createPod _ (ownMetadata_of_strip h ‹_›)).bind fun _ _ =>
            own_waitForPodIp driver hname
  · exact asks_throw _

theorem own_run (request : RunRequest) :
    Own (F := F) runId (driver.run request) fun _ => True := by
  refine (own_buildPodManifest hrun request).bind fun manifest hmanifest => ?_
  refine (own_createPod _ hmanifest).bind fun created hcreated => ?_
  refine (own_waitOrRecreate hrun request.name hcreated).bind fun podIp _ => ?_
  refine (own_result (OwnMetadata runId) fun metadata hmetadata =>
    ownMetadata_of_resourceMetadata hrun hmetadata).bind fun metadata hmetadata => ?_
  split
  · exact asks_throw _
  · refine (own_api' (.createService ⟨metadata, _, _⟩) hmetadata).bind fun service _ => ?_
    have hreturn : ∀ started started' : Started, Own (F := F) runId
        (if driver.inCluster = true then return started else return started') fun _ => True := by
      intro started started'
      split <;> exact asks_pure trivial
    dsimp only
    split
    · exact (own_setServiceAlias _ _).bind fun _ _ => hreturn _ _
    · exact hreturn _ _

end Starts

/-! ### Commands, downloads and uploads -/

section Commands

variable {runId resource : String} (hname : ownsName runId resource = true)

include hname

theorem own_requireExecReady : Own (F := F) runId (requireExecReady resource) fun _ => True := by
  refine (own_api' (.readPod resource) hname).bind fun pod _ => ?_
  split
  · exact asks_throw _
  · split
    · exact asks_throw _
    · exact asks_pure trivial

theorem own_execStream (command : List String) (action : String) :
    Own (F := F) runId (execStream resource command action) fun _ => True := by
  refine (own_api' (.exec resource command) hname).tryCatch fun raised => ?_
  split <;> exact asks_throw _

theorem own_execChecked (action : String) (command : List String) :
    Own (F := F) runId (execChecked resource action command) fun _ => True := by
  refine (own_execStream hname command action).bind fun outcome _ => ?_
  split
  · exact asks_throw _
  · dsimp only
    split
    · exact asks_throw _
    · exact asks_pure trivial

theorem own_pollRunning (deadline : Rat) (polls : Nat) :
    Own (F := F) runId (pollRunning resource deadline polls) fun _ => True := by
  induction polls with
  | zero => exact asks_throw _
  | succ polls ih =>
    unfold pollRunning
    refine (own_api' (.readPod resource) hname).bind fun pod _ => ?_
    dsimp only
    split
    · exact asks_throw _
    · refine (own_result (fun _ => True) fun _ _ => trivial).bind fun running _ => ?_
      split
      · exact asks_pure trivial
      · refine own_monotonic.bind fun now _ => ?_
        split
        · exact asks_throw _
        · exact (own_sleep 1).bind fun _ _ => ih

end Commands

section Operations

variable {runId : String} {driver : KubernetesDriver} (hrun : driver.InRun runId)

include hrun

theorem own_containerState (name : String) :
    Own (F := F) runId (driver.containerState name) fun _ => True := by
  have hread : Own (F := F) runId (do
      let pod ← api (.readPod (driver.resourceName name))
      return formatPodStatus (Pod.status pod)) fun _ => True :=
    (own_api' (.readPod _) (ownsName_resourceName hrun name)).bind fun _ _ =>
      asks_pure trivial
  exact hread.tryCatch fun _ => asks_pure trivial

theorem own_download (name srcPath : String) :
    Own (F := F) runId (driver.download name srcPath) fun _ => True := by
  have hname := ownsName_resourceName hrun name
  refine (own_requireExecReady hname).bind fun _ _ => ?_
  split
  · exact asks_throw _
  · refine (own_execStream hname _ _).bind fun outcome _ => ?_
    split
    · exact asks_throw _
    · exact (own_result (fun _ => True) fun _ _ => trivial).bind fun _ _ =>
        own_result (fun _ => True) fun _ _ => trivial

theorem own_upload (name dstPath : String) (archive : List Base64.Byte) :
    Own (F := F) runId (driver.upload name dstPath archive) fun _ => True := by
  have hname := ownsName_resourceName hrun name
  refine (own_monotonic.bind fun _ _ => own_pollRunning hname _ _).bind fun _ _ => ?_
  refine own_uuid4.bind fun identifier _ => ?_
  refine (Asks.forM fun command _ => own_execChecked hname _ command).tryCatch fun raised => ?_
  exact ((own_execChecked hname _ _).tryCatch fun _ => asks_pure trivial).bind fun _ _ =>
    asks_throw _

omit hrun in
theorem own_reported (request : Request) (h : Allowed runId (.api request)) :
    Own (F := F) runId (reported request) fun _ => True := by
  have hrequest : Own (F := F) runId (do
      let _ ← api request
      return ()) fun _ => True := (own_api' request h).bind fun _ _ => asks_pure trivial
  refine hrequest.tryCatch fun raised => ?_
  split
  · exact asks_pure trivial
  · exact asks_throw _

/-- A cleanup deletes what its own selector lists, and not the namespace. -/
theorem own_cleanup : Own (F := F) runId driver.cleanup fun _ => True := by
  have hselector : ∀ labels, selects driver.cleanupSelector labels = true →
      labels.lookup runIdLabel = some runId := fun _ => lookup_of_selects hrun
  have hlisted : Own (F := F) runId (listed driver.cleanupSelector)
      fun result => ∀ pods, result = some pods → ∀ pod ∈ pods, ownsName runId pod.name = true := by
    refine Asks.tryCatch (Asks.bind (own_api (.listPods _) hselector
      fun pods hpods => hpods pods rfl) fun pods hpods => asks_pure ?_) fun raised => ?_
    · rintro _ ⟨⟩
      exact hpods
    · split
      · exact asks_pure nofun
      · exact asks_throw _
  refine hlisted.bind fun result hpods => ?_
  split
  · exact asks_pure trivial
  · refine (Asks.forM fun pod hpod =>
      own_reported (.deletePod _) (hpods _ rfl pod hpod)).bind fun _ _ => ?_
    refine (own_api (.listServices _) hselector
      fun services hservices => hservices services rfl).bind fun services hservices => ?_
    refine (Asks.forM fun service hservice =>
      own_reported (.deleteService _) (hservices service hservice)).bind fun _ _ => ?_
    rw [hrun.reuse]
    exact asks_pure trivial

/-- Whatever the engine asks of the driver, the driver asks for its own run's resources only. -/
theorem own_operation (op : Operation) :
    Session.Meets (Allowed runId) (Given (F := F) runId) (fun _ => True)
      (driver.operation op) := by
  have hforget : ∀ {α : Type} {step : Op F α} {post : α → Prop}, Own runId step post →
      Session.Meets (Allowed runId) (Given (F := F) runId) (fun _ => True) step.run :=
    fun h => Meets.mono h fun _ _ => trivial
  cases op with
  | run request => exact hforget (own_run hrun request)
  | stop name => exact hforget (own_delete driver (ownsName_resourceName hrun name))
  | pause name => exact hforget (own_execChecked (ownsName_resourceName hrun name) _ _)
  | unpause name => exact hforget (own_execChecked (ownsName_resourceName hrun name) _ _)
  | peek name path =>
    have hname := ownsName_resourceName hrun name
    exact hforget ((own_requireExecReady hname).bind fun _ _ =>
      (own_execStream hname _ _).bind fun _ _ => own_result (fun _ => True) fun _ _ => trivial)
  | logs name =>
    exact hforget (own_api' (.podLog _) (ownsName_resourceName hrun name))
  | containerState name => exact hforget (own_containerState hrun name)
  | download name srcPath => exact hforget (own_download hrun name srcPath)
  | upload name dstPath archive => exact hforget (own_upload hrun name dstPath archive)
  | cleanup => exact hforget (own_cleanup hrun)

end Operations

end CoinjoinEmulator.Driver
