import CoinjoinEmulator.Driver.OwnRequests

/-! Runs that share a namespace do not get in each other's way: under every interleaving of their
drivers' requests, each run sees what it would see alone. -/

namespace CoinjoinEmulator.Driver

open ProofKit ProofKit.Session KubernetesDriver

variable {F : Type}

/-- The part of a namespace whose names are `mine`. -/
def Cluster.part (mine : String → Bool) (cluster : Cluster F) : Cluster F where
  pods := Registry.part Pod.name mine cluster.pods
  services := Registry.part Service.name mine cluster.services

/-! ### The part of one run -/

section Part

variable {mine : String → Bool} {name : String}

/-- A change of a pod that keeps what the pod was created with. -/
def KeepsManifest (f : Pod F → Option (Pod F)) : Prop :=
  ∀ pod pod', f pod = some pod' → pod'.manifest = pod.manifest

theorem KeepsManifest.sameName {f : Pod F → Option (Pod F)} (hf : KeepsManifest f) (pod pod' : Pod F)
    (h : f pod = some pod') : pod'.name = pod.name := by
  unfold Pod.name
  rw [hf pod pod' h]

theorem keepsManifest_some {g : Pod F → Pod F} (h : ∀ pod, (g pod).manifest = pod.manifest) :
    KeepsManifest fun pod => some (g pod) := by
  rintro pod _ ⟨⟩
  exact h pod

theorem keepsManifest_none : KeepsManifest fun _ : Pod F => none := by
  intro pod pod' h
  cases h

theorem removed_sameName (service service' : Service)
    (h : (fun _ : Service => (none : Option Service)) service = some service') :
    service'.name = service.name := by
  cases h

theorem pod_part (h : mine name = true) (cluster : Cluster F) :
    (cluster.part mine).pod name = cluster.pod name := Registry.find_part h _

theorem service_part (h : mine name = true) (cluster : Cluster F) :
    (cluster.part mine).service name = cluster.service name := Registry.find_part h _

theorem hasPod_part (h : mine name = true) (cluster : Cluster F) :
    (cluster.part mine).hasPod name = cluster.hasPod name := Registry.holds_part h _

theorem hasService_part (h : mine name = true) (cluster : Cluster F) :
    (cluster.part mine).hasService name = cluster.hasService name := Registry.holds_part h _

theorem addPod_part_own {pod : Pod F} (h : mine pod.name = true) (cluster : Cluster F) :
    (cluster.part mine).addPod pod = (cluster.addPod pod).part mine := by
  simp only [Cluster.addPod, Cluster.part, Registry.part_append_own h]

theorem addPod_part_other {pod : Pod F} (h : mine pod.name = false) (cluster : Cluster F) :
    (cluster.addPod pod).part mine = cluster.part mine := by
  simp only [Cluster.addPod, Cluster.part, Registry.part_append_other h]

theorem addService_part_own {service : Service} (h : mine service.name = true)
    (cluster : Cluster F) :
    (cluster.part mine).addService service = (cluster.addService service).part mine := by
  simp only [Cluster.addService, Cluster.part, Registry.part_append_own h]

theorem addService_part_other {service : Service} (h : mine service.name = false)
    (cluster : Cluster F) : (cluster.addService service).part mine = cluster.part mine := by
  simp only [Cluster.addService, Cluster.part, Registry.part_append_other h]

theorem changePod_part_own (h : mine name = true) {f : Pod F → Option (Pod F)}
    (hf : KeepsManifest f) (cluster : Cluster F) :
    (cluster.part mine).changePod name f = (cluster.changePod name f).part mine := by
  simp only [Cluster.changePod, Cluster.part, Registry.part_change_own h hf.sameName]

theorem changePod_part_other (h : mine name = false) {f : Pod F → Option (Pod F)}
    (hf : KeepsManifest f) (cluster : Cluster F) :
    (cluster.changePod name f).part mine = cluster.part mine := by
  simp only [Cluster.changePod, Cluster.part, Registry.part_change_other h hf.sameName]

theorem removeService_part_own (h : mine name = true) (cluster : Cluster F) :
    (cluster.part mine).removeService name = (cluster.removeService name).part mine := by
  simp only [Cluster.removeService, Cluster.part, Registry.part_change_own h removed_sameName]

theorem removeService_part_other (h : mine name = false) (cluster : Cluster F) :
    (cluster.removeService name).part mine = cluster.part mine := by
  simp only [Cluster.removeService, Cluster.part, Registry.part_change_other h removed_sameName]

/-- What is selected from the part is what is selected from the whole, if everything that is
selected belongs to the part. -/
theorem filter_part {α : Type} (mine : String → Bool) (key : α → String) {selected : α → Bool}
    {objects : List α}
    (h : ∀ a ∈ objects, selected a = true → mine (key a) = true) :
    (Registry.part key mine objects).filter selected = objects.filter selected := by
  unfold Registry.part
  rw [List.filter_filter]
  refine List.filter_congr fun a ha => ?_
  cases hselected : selected a with
  | false => rfl
  | true => simp [h a ha hselected]

end Part

/-! ### The namespaces that are reached -/

section Tidy

variable {O : Type} (runIds : O → String)

/-- Every resource that is labelled with a run has a name of that run. -/
structure Tidy (cluster : Cluster F) : Prop where
  pods : ∀ pod ∈ cluster.pods, ∀ o,
    pod.manifest.metadata.labels.lookup runIdLabel = some (runIds o) →
      ownsName (runIds o) pod.name = true
  services : ∀ service ∈ cluster.services, ∀ o,
    service.manifest.metadata.labels.lookup runIdLabel = some (runIds o) →
      ownsName (runIds o) service.name = true

variable {runIds} {cluster : Cluster F}

theorem tidy_nil : Tidy (F := F) runIds ⟨[], []⟩ where
  pods pod hpod := by cases hpod
  services service hservice := by cases hservice

theorem Tidy.changePod (h : Tidy runIds cluster) {f : Pod F → Option (Pod F)}
    (hf : KeepsManifest f) (name : String) : Tidy runIds (cluster.changePod name f) := by
  refine ⟨fun pod' hpod' o ho => ?_, h.services⟩
  obtain ⟨hpod, -⟩ | ⟨pod, hpod, -, hchange⟩ := Registry.mem_change hpod'
  · exact h.pods pod' hpod o ho
  · rw [hf pod pod' hchange] at ho
    rw [hf.sameName pod pod' hchange]
    exact h.pods pod hpod o ho

theorem Tidy.removeService (h : Tidy runIds cluster) (name : String) :
    Tidy runIds (cluster.removeService name) := by
  refine ⟨h.pods, fun service hservice o ho => ?_⟩
  obtain ⟨hold, -⟩ | ⟨_, _, _, hnone⟩ := Registry.mem_change hservice
  · exact h.services service hold o ho
  · cases hnone

/-- A resource that is named and labelled for a run is labelled with no other one. -/
theorem ownsName_of_ownMetadata {p o : O} {metadata : Metadata}
    (h : OwnMetadata (runIds p) metadata)
    (ho : metadata.labels.lookup runIdLabel = some (runIds o)) :
    ownsName (runIds o) metadata.name = true := by
  have hsame : runIds p = runIds o := Option.some.inj (h.2.symm.trans ho)
  rw [← hsame]
  exact h.1

theorem Tidy.serve (h : Tidy runIds cluster) (containers : Containers F) (turn : Turn) {p : O}
    {request : Request} (hallowed : Allowed (runIds p) (.api request)) :
    Tidy runIds (serve containers turn request cluster).2 := by
  cases request with
  | createPod manifest =>
    simp only [Driver.serve]
    split
    · exact h
    · refine ⟨fun pod hpod o ho => ?_, h.services⟩
      obtain hpod | hpod := List.mem_append.mp hpod
      · exact h.pods pod hpod o ho
      · obtain rfl := List.mem_singleton.mp hpod
        exact ownsName_of_ownMetadata hallowed ho
  | createService manifest =>
    simp only [Driver.serve]
    split
    · exact h
    · refine ⟨h.pods, fun service hservice o ho => ?_⟩
      obtain hservice | hservice := List.mem_append.mp hservice
      · exact h.services service hservice o ho
      · obtain rfl := List.mem_singleton.mp hservice
        exact ownsName_of_ownMetadata hallowed ho
  | deletePod name =>
    simp only [Driver.serve]
    split
    · refine h.changePod ?_ name
      exact keepsManifest_some fun _ => rfl
    · exact h
  | deleteService name =>
    simp only [Driver.serve]
    split
    · exact h.removeService name
    · exact h
  | exec name command =>
    simp only [Driver.serve]
    split
    · exact h
    · refine h.changePod ?_ name
      exact keepsManifest_some fun _ => rfl
  | deleteNamespace => exact hallowed.elim
  | readPod name => exact h
  | readService name => exact h
  | listPods selector => exact h
  | listServices selector => exact h
  | podLog name => exact h

theorem Tidy.apply (h : Tidy runIds cluster) (event : Event F) :
    Tidy runIds (event.apply cluster) := by
  cases event with
  | podStatus name status nodeName =>
    refine h.changePod ?_ name
    exact keepsManifest_some fun _ => rfl
  | podContents name contents =>
    refine h.changePod ?_ name
    exact keepsManifest_some fun _ => rfl
  | podGone name => exact h.changePod keepsManifest_none name
  | serviceGone name => exact h.removeService name

end Tidy

/-! ### One request -/

section Serve

variable {O : Type} {runIds : O → String} {cluster : Cluster F} (containers : Containers F)
  (turn : Turn) {request : Request}

/-- A run's request is answered from the run's part of the namespace and changes that part. -/
theorem serve_part_own (h : Tidy runIds cluster) {o : O}
    (hallowed : Allowed (runIds o) (.api request)) :
    serve containers turn request (cluster.part (ownsName (runIds o))) =
      ((serve containers turn request cluster).1,
        (serve containers turn request cluster).2.part (ownsName (runIds o))) := by
  cases request with
  | createPod manifest =>
    simp only [serve, hasPod_part hallowed.1]
    split
    · rfl
    · rw [addPod_part_own (by exact hallowed.1)]
  | createService manifest =>
    simp only [serve, hasService_part hallowed.1]
    split
    · rfl
    · rw [addService_part_own (by exact hallowed.1)]
  | readPod name => simp only [serve, pod_part hallowed]
  | readService name => simp only [serve, service_part hallowed]
  | podLog name => simp only [serve, pod_part hallowed]
  | deletePod name =>
    simp only [serve, hasPod_part hallowed]
    split
    · rw [changePod_part_own hallowed]
      exact keepsManifest_some fun _ => rfl
    · rfl
  | deleteService name =>
    simp only [serve, hasService_part hallowed]
    split
    · rw [removeService_part_own hallowed]
    · rfl
  | listPods selector =>
    have hlist := filter_part (ownsName (runIds o)) Pod.name
      fun pod hpod hselected => h.pods pod hpod o (hallowed _ hselected)
    simp only [serve]
    rw [← hlist]
    rfl
  | listServices selector =>
    have hlist := filter_part (ownsName (runIds o)) Service.name
      fun service hservice hselected => h.services service hservice o (hallowed _ hselected)
    simp only [serve]
    rw [← hlist]
    rfl
  | exec name command =>
    simp only [serve, pod_part hallowed]
    split
    · rfl
    · rw [changePod_part_own hallowed]
      exact keepsManifest_some fun _ => rfl
  | deleteNamespace => exact hallowed.elim

/-- A run's request leaves the part of the namespace as it is whose names are not the run's. -/
theorem serve_part_other (cluster : Cluster F) {runId : String} {mine : String → Bool}
    (hmine : ∀ name, ownsName runId name = true → mine name = false)
    (hallowed : Allowed runId (.api request)) :
    (serve containers turn request cluster).2.part mine = cluster.part mine := by
  cases request with
  | createPod manifest =>
    simp only [serve]
    split
    · rfl
    · exact addPod_part_other (by exact hmine _ hallowed.1) cluster
  | createService manifest =>
    simp only [serve]
    split
    · rfl
    · exact addService_part_other (by exact hmine _ hallowed.1) cluster
  | deletePod name =>
    simp only [serve]
    split
    · refine changePod_part_other (hmine _ hallowed) ?_ cluster
      exact keepsManifest_some fun _ => rfl
    · rfl
  | deleteService name =>
    simp only [serve]
    split
    · exact removeService_part_other (hmine _ hallowed) cluster
    · rfl
  | exec name command =>
    simp only [serve]
    split
    · rfl
    · refine changePod_part_other (hmine _ hallowed) ?_ cluster
      exact keepsManifest_some fun _ => rfl
  | deleteNamespace => exact hallowed.elim
  | readPod name => rfl
  | readService name => rfl
  | listPods selector => rfl
  | listServices selector => rfl
  | podLog name => rfl

theorem given_serve (h : Tidy runIds cluster) {o : O}
    (hallowed : Allowed (runIds o) (.api request)) :
    Given (runIds o) (.api request) (serve containers turn request cluster).1 := by
  cases request with
  | listPods selector =>
    rintro _ ⟨⟩ pod hpod
    obtain ⟨hmem, hselected⟩ := List.mem_filter.mp hpod
    exact h.pods pod hmem o (hallowed _ hselected)
  | listServices selector =>
    rintro _ ⟨⟩ service hservice
    obtain ⟨hmem, hselected⟩ := List.mem_filter.mp hservice
    exact h.services service hmem o (hallowed _ hselected)
  | createPod _ => exact trivial
  | createService _ => exact trivial
  | readPod _ => exact trivial
  | readService _ => exact trivial
  | deletePod _ => exact trivial
  | deleteService _ => exact trivial
  | exec _ _ => exact trivial
  | podLog _ => exact trivial
  | deleteNamespace => exact trivial

theorem apply_part_own {mine : String → Bool} {event : Event F} (h : mine event.name = true) :
    event.apply (cluster.part mine) = (event.apply cluster).part mine := by
  cases event with
  | podStatus name status nodeName =>
    refine changePod_part_own h ?_ cluster
    exact keepsManifest_some fun _ => rfl
  | podContents name contents =>
    refine changePod_part_own h ?_ cluster
    exact keepsManifest_some fun _ => rfl
  | podGone name => exact changePod_part_own h keepsManifest_none cluster
  | serviceGone name => exact removeService_part_own h cluster

theorem apply_part_other {mine : String → Bool} {event : Event F} (h : mine event.name = false) :
    (event.apply cluster).part mine = cluster.part mine := by
  cases event with
  | podStatus name status nodeName =>
    refine changePod_part_other h ?_ cluster
    exact keepsManifest_some fun _ => rfl
  | podContents name contents =>
    refine changePod_part_other h ?_ cluster
    exact keepsManifest_some fun _ => rfl
  | podGone name => exact changePod_part_other h keepsManifest_none cluster
  | serviceGone name => exact removeService_part_other h cluster

end Serve

/-! ### Every interleaving -/

section Runs

variable {O N α : Type} [DecidableEq O]

/-- What a run has of the namespace and remembers. -/
def Shared.view (runIds : O → String) (o : O) (shared : Shared O F) : Shared O F where
  cluster := shared.cluster.part (ownsName (runIds o))
  serviceAliases p := if p = o then shared.serviceAliases p else []

variable {runIds : O → String} (containers : Containers F)

theorem answer_view (o : O) (turn : Turn) (question : Question) (shared : Shared O F)
    (h : Tidy runIds shared.cluster) (hallowed : Allowed (runIds o) question) :
    (host containers).answer o turn question (shared.view runIds o) =
      (((host containers).answer o turn question shared).1,
        ((host containers).answer o turn question shared).2.view runIds o) := by
  cases question with
  | api request =>
    have hserve := serve_part_own containers turn h hallowed
    simp only [host, Shared.view, hserve]
    cases turn.fault with
    | none => rfl
    | some fault =>
      by_cases hperformed : turn.performed = true
      · simp only [hperformed, if_true]
      · simp only [hperformed]
        rfl
  | serviceAliases => simp [host, Shared.view]
  | setServiceAlias name ip =>
    have haliases : (fun p => if p = o then Function.update shared.serviceAliases o
          (setItem (shared.serviceAliases o) name ip) p else []) =
        Function.update (fun p => if p = o then shared.serviceAliases p else []) o
          (setItem (shared.serviceAliases o) name ip) := by
      funext p
      by_cases hp : p = o
      · subst hp
        simp
      · simp [hp]
    simp only [host, Shared.view, if_true, haliases]
  | monotonic => rfl
  | sleep seconds => rfl
  | uuid4 => rfl

theorem answer_other {o p : O} (hp : p ≠ o)
    (hsuffix : runSuffix (runIds p) = runSuffix (runIds o) → p = o) (turn : Turn)
    (question : Question) (shared : Shared O F) (hallowed : Allowed (runIds p) question) :
    ((host containers).answer p turn question shared).2.view runIds o = shared.view runIds o := by
  have hmine : ∀ name, ownsName (runIds p) name = true → ownsName (runIds o) name = false := by
    intro name hname
    by_contra hown
    exact hp (hsuffix (runSuffix_eq_of_ownsName hname (by simpa using hown)))
  cases question with
  | api request =>
    have hserve := serve_part_other containers turn shared.cluster hmine hallowed
    simp only [host]
    cases turn.fault with
    | none => simp only [Shared.view, hserve]
    | some fault =>
      by_cases hperformed : turn.performed = true
      · simp only [hperformed, if_true, Shared.view, hserve]
      · simp only [hperformed]
        rfl
  | setServiceAlias name ip =>
    simp only [host, Shared.view, Shared.mk.injEq, true_and]
    funext q
    by_cases hq : q = o
    · have hqp : q ≠ p := by
        rintro rfl
        exact hp hq
      simp [Function.update_of_ne hqp]
    · simp [hq]
  | serviceAliases => rfl
  | monotonic => rfl
  | sleep seconds => rfl
  | uuid4 => rfl

theorem tidy_answer (p : O) (turn : Turn) (question : Question) (shared : Shared O F)
    (h : Tidy runIds shared.cluster) (hallowed : Allowed (runIds p) question) :
    Tidy runIds ((host containers).answer p turn question shared).2.cluster ∧
      Given (runIds p) question ((host containers).answer p turn question shared).1 := by
  cases question with
  | api request =>
    have hserve := h.serve containers turn hallowed
    have hgiven := given_serve containers turn h hallowed
    simp only [host]
    cases turn.fault with
    | none => exact ⟨hserve, hgiven⟩
    | some fault =>
      refine ⟨?_, ?_⟩
      · show Tidy runIds (if turn.performed = true then _ else shared : Shared O F).cluster
        split
        · exact hserve
        · exact h
      · cases request with
        | listPods _ => exact nofun
        | listServices _ => exact nofun
        | _ => exact trivial
  | monotonic => exact ⟨h, trivial⟩
  | sleep seconds => exact ⟨h, trivial⟩
  | uuid4 => exact ⟨h, trivial⟩
  | serviceAliases => exact ⟨h, trivial⟩
  | setServiceAlias name ip => exact ⟨h, trivial⟩

/-- The resources whose names end with a run's suffix are separate from all other ones. -/
theorem separates (hsuffix : ∀ o p, runSuffix (runIds o) = runSuffix (runIds p) → o = p) (o : O) :
    (host containers).Separates o (Shared.view runIds o)
      (fun event => ownsName (runIds o) event.name) (fun shared => Tidy runIds shared.cluster)
      (fun p => Allowed (runIds p)) fun p => Given (F := F) (runIds p) where
  keeps p turn question shared h hallowed :=
    (tidy_answer containers p turn question shared h hallowed).1
  gives p turn question shared h hallowed :=
    (tidy_answer containers p turn question shared h hallowed).2
  own_reply turn question shared h hallowed := by
    rw [answer_view containers o turn question shared h hallowed]
  own_state turn question shared h hallowed := by
    rw [answer_view containers o turn question shared h hallowed]
  others p turn question shared _ hp hallowed :=
    answer_other containers hp (hsuffix p o) turn question shared hallowed
  keeps_outside event shared h := h.apply event
  own_outside event shared _ hown := by
    simp only [host, Shared.view, apply_part_own hown]
  other_outside event shared _ hother := by
    simp only [host, Shared.view, apply_part_other hother]

/-- The runs' resources have their names, and what is left of each thread asks for its own. -/
abbrev InOrder (runIds : O → String) (owner : N → O) :
    Table (Shared O F) N Question (Reply F) α → Prop :=
  Host.Orderly owner (fun shared => Tidy runIds shared.cluster) (fun p => Allowed (runIds p))
    fun p => Given (F := F) (runIds p)

omit [DecidableEq O] in
theorem inOrder_start {drivers : O → KubernetesDriver} (hruns : ∀ o, (drivers o).InRun (runIds o))
    (owner : N → O) (scripts : N → Session Operation OperationResult α) {shared : Shared O F}
    (htidy : Tidy runIds shared.cluster) :
    InOrder runIds owner
      ⟨shared, fun n => (scripts n).perform (drivers (owner n)).operation⟩ :=
  ⟨htidy, fun n => Meets.perform (own_operation (hruns (owner n))) (scripts n)⟩

variable [DecidableEq N]

/-- Runs whose ids have different suffixes do not get in each other's way in a namespace that they
share.  Whatever the threads of each run do with their drivers and however their requests are
interleaved, a run's threads get as far, with the same answers, and leave the same resources, as
when only the moves of this run are made on its own resources. -/
theorem runs_are_isolated (drivers : O → KubernetesDriver)
    (hruns : ∀ o, (drivers o).InRun (runIds o))
    (hsuffix : ∀ o p, runSuffix (runIds o) = runSuffix (runIds p) → o = p) (owner : N → O)
    (scripts : N → Session Operation OperationResult α) (shared : Shared O F)
    (htidy : Tidy runIds shared.cluster) (o : O) (schedule : List (Move N Turn (Event F))) :
    let sessions := fun n => (scripts n).perform (drivers (owner n)).operation
    let own := Host.isOwn owner o fun event => ownsName (runIds o) (Event.name event)
    Host.Alone owner o (Shared.view runIds o)
      ((host containers).moves owner ⟨shared.view runIds o, sessions⟩ (schedule.filter own))
      ((host containers).moves owner ⟨shared, sessions⟩ schedule) := by
  intro sessions own
  have halone : Host.Alone owner o (Shared.view runIds o)
      (⟨shared.view runIds o, sessions⟩ : Table (Shared O F) N Question (Reply F) α)
      ⟨shared, sessions⟩ := ⟨rfl, fun _ _ => rfl⟩
  exact (separates containers hsuffix o).moves_alone (inOrder_start hruns owner scripts htidy)
    halone schedule

/-- A turn of another run's thread leaves what a run has. -/
theorem view_turn (hsuffix : ∀ o p, runSuffix (runIds o) = runSuffix (runIds p) → o = p)
    {owner : N → O} {o : O} {m : N} (hm : owner m ≠ o)
    {table : Table (Shared O F) N Question (Reply F) α} (horder : InOrder runIds owner table)
    (turn : Turn) :
    ((host containers).move owner table (.turn m turn)).state.view runIds o =
      table.state.view runIds o := by
  have halone : Host.Alone owner o (Shared.view runIds o)
      (⟨table.state.view runIds o, table.sessions⟩ :
        Table (Shared O F) N Question (Reply F) α) table := ⟨rfl, fun _ _ => rfl⟩
  have hother : Host.isOwn owner o (fun event => ownsName (runIds o) (Event.name (F := F) event))
      (.turn m turn) = false := by simp [Host.isOwn, hm]
  exact ((separates containers hsuffix o).other_move horder halone hother).state.symm

end Runs

def pairIds (o : Bool) : String := if o = true then "run-a" else "run-b"

def pairDrivers (o : Bool) : KubernetesDriver :=
  { reuseNamespace := true, runId := some (pairIds o), timeouts := { polls := 2 } }

theorem pairDrivers_inRun (o : Bool) : (pairDrivers o).InRun (pairIds o) :=
  ⟨rfl, rfl, by cases o <;> decide⟩

/-- A container that does nothing. -/
def idleContainers : Containers Unit := ⟨fun _ => (), fun _ _ => ({}, ()), fun _ => ""⟩

/-- Both runs start a container of the same name, and one of them cleans up. -/
def pairScript (o : Bool) : Session Operation OperationResult Unit :=
  .ask (.run { name := "btc-node", image := "btc-node", ports := some [(18443, 18443)] }) fun _ =>
    if o = true then .ask .cleanup fun _ => .done () else .done ()

/-- The threads take turns, so many times. -/
def pairTurns (count : Nat) : List (Move Bool Turn (Event Unit)) :=
  (List.range count).flatMap fun i =>
    [.turn true { clock := i, clusterIp := "10.0.1.1" },
      .turn false { clock := i, clusterIp := "10.0.1.2" }]

def podStarts (o : Bool) (podIp : String) : Move Bool Turn (Event Unit) :=
  .event (.podStatus ((pairDrivers o).resourceName "btc-node")
    { phase := some "Running", podIp := some podIp } (some "node"))

/-- The pods get their addresses while the threads wait for them, and one is gone in the end. -/
def pairSchedule : List (Move Bool Turn (Event Unit)) :=
  pairTurns 4 ++ [podStarts true "10.0.0.1"] ++ pairTurns 1 ++ [podStarts false "10.0.0.2"] ++
    pairTurns 10 ++ [.event (.podGone ((pairDrivers true).resourceName "btc-node"))]

/-- Both Services are created, and only the one of the run that cleaned up is gone. -/
theorem runs_are_isolated_pair :
    let sessions := fun n => (pairScript n).perform (pairDrivers n).operation
    Host.Alone id true (Shared.view pairIds true)
        ((host idleContainers).moves id
          ⟨Shared.view pairIds true ⟨⟨[], []⟩, fun _ => []⟩, sessions⟩
          (pairSchedule.filter
            (Host.isOwn id true fun event => ownsName "run-a" (Event.name event))))
        ((host idleContainers).moves id ⟨⟨⟨[], []⟩, fun _ => []⟩, sessions⟩ pairSchedule) ∧
      (((host idleContainers).moves id ⟨⟨⟨[], []⟩, fun _ => []⟩, sessions⟩
        (pairSchedule.take 22)).state.cluster.services.map Service.name) =
          [true, false].map (fun o => (pairDrivers o).resourceName "btc-node") ∧
      (((host idleContainers).moves id ⟨⟨⟨[], []⟩, fun _ => []⟩, sessions⟩
        pairSchedule).state.cluster.services.map Service.name) =
          [(pairDrivers false).resourceName "btc-node"] :=
  ⟨runs_are_isolated _ pairDrivers pairDrivers_inRun (by decide +kernel) id pairScript _
    tidy_nil true pairSchedule, by decide +kernel, by decide +kernel⟩

end CoinjoinEmulator.Driver
