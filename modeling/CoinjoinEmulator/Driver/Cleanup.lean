import CoinjoinEmulator.Driver.Isolation
import CoinjoinEmulator.ProofKit.Rely

/-! A cleanup that meets no fault leaves nothing of its run behind, whatever the other runs do to
the namespace at the same time. -/

namespace CoinjoinEmulator.Driver

open ProofKit ProofKit.Session KubernetesDriver

variable {F O : Type} (runIds : O → String)

/-- The steps of the others: they leave a run's part of the namespace as it is, or something
happens to a pod or a Service. -/
structure Others (o : O) (shared shared' : Shared O F) : Prop where
  tidy : Tidy runIds shared.cluster → Tidy runIds shared'.cluster
  part : shared'.cluster.part (ownsName (runIds o)) = shared.cluster.part (ownsName (runIds o)) ∨
    ∃ event : Event F, shared'.cluster = event.apply shared.cluster

/-- What holds of a run's part of a namespace that is tidy. -/
def OfPart (o : O) (P : Cluster F → Prop) (shared : Shared O F) : Prop :=
  Tidy runIds shared.cluster ∧ P (shared.cluster.part (ownsName (runIds o)))

/-- A fact that outlives what happens to pods and Services. -/
def Lasting (P : Cluster F → Prop) : Prop := ∀ cluster (event : Event F), P cluster →
  P (event.apply cluster)

theorem Lasting.and {P P' : Cluster F → Prop} (h : Lasting P) (h' : Lasting P') :
    Lasting fun cluster => P cluster ∧ P' cluster :=
  fun cluster event hP => ⟨h cluster event hP.1, h' cluster event hP.2⟩

/-- A fact about every pod, which says nothing of what happens to pods. -/
theorem lasting_pods {P : Pod F → Prop}
    (h : ∀ pod pod' : Pod F, pod'.manifest = pod.manifest → pod'.terminating = pod.terminating →
      P pod → P pod') : Lasting fun cluster : Cluster F => ∀ pod ∈ cluster.pods, P pod := by
  intro cluster event hP
  cases event with
  | podStatus name status nodeName =>
    intro pod hpod
    obtain ⟨hold, -⟩ | ⟨old, hold, -, hchange⟩ := Registry.mem_change hpod
    · exact hP pod hold
    · cases hchange
      exact h old _ rfl rfl (hP old hold)
  | podContents name contents =>
    intro pod hpod
    obtain ⟨hold, -⟩ | ⟨old, hold, -, hchange⟩ := Registry.mem_change hpod
    · exact hP pod hold
    · cases hchange
      exact h old _ rfl rfl (hP old hold)
  | podGone name =>
    intro pod hpod
    obtain ⟨hold, -⟩ | ⟨_, _, _, hnone⟩ := Registry.mem_change hpod
    · exact hP pod hold
    · cases hnone
  | serviceGone name => exact hP

theorem lasting_services {P : Service → Prop} :
    Lasting fun cluster : Cluster F => ∀ service ∈ cluster.services, P service := by
  intro cluster event hP
  cases event with
  | serviceGone name =>
    intro service hservice
    obtain ⟨hold, -⟩ | ⟨_, _, _, hnone⟩ := Registry.mem_change hservice
    · exact hP service hold
    · cases hnone
  | podStatus name status nodeName => exact hP
  | podContents name contents => exact hP
  | podGone name => exact hP

theorem lasting_podCount (n : Nat) :
    Lasting fun cluster : Cluster F => cluster.pods.length ≤ n := by
  intro cluster event hP
  have hchange : ∀ (name : String) (f : Pod F → Option (Pod F)),
      (Registry.change Pod.name name f cluster.pods).length ≤ n := fun _ _ =>
    (List.length_filterMap_le _ _).trans hP
  cases event with
  | podStatus name status nodeName => exact hchange name _
  | podContents name contents => exact hchange name _
  | podGone name => exact hchange name _
  | serviceGone name => exact hP

theorem lasting_serviceCount (n : Nat) :
    Lasting fun cluster : Cluster F => cluster.services.length ≤ n := by
  intro cluster event hP
  cases event with
  | serviceGone name => exact (List.length_filterMap_le _ _).trans hP
  | podStatus name status nodeName => exact hP
  | podContents name contents => exact hP
  | podGone name => exact hP

variable {runIds} {o : O}

theorem stable_ofPart {P : Cluster F → Prop} (h : Lasting P) :
    Host.Stable (Others runIds o) (OfPart runIds o P) := by
  intro shared shared' hP hothers
  refine ⟨hothers.tidy hP.1, ?_⟩
  obtain hsame | ⟨event, hevent⟩ := hothers.part
  · rw [hsame]
    exact hP.2
  · rw [hevent]
    cases hown : ownsName (runIds o) event.name with
    | true =>
      rw [← apply_part_own hown]
      exact h _ event hP.2
    | false =>
      rw [apply_part_other hown]
      exact hP.2

variable [DecidableEq O]

/-- A turn without a fault. -/
def Faultless (turn : Turn) : Prop := turn.fault = none

/-- One own request: what holds of the run's part before and what the API server does with that
part. -/
theorem ofPart_answer (containers : Containers F) {turn : Turn} (hturn : Faultless turn)
    (request : Request) (hallowed : Allowed (runIds o) (.api request)) {P : Cluster F → Prop}
    (R : Except ApiException (Answer F request) → Cluster F → Prop)
    (h : ∀ cluster, P cluster →
      R (serve containers turn request cluster).1 (serve containers turn request cluster).2)
    {shared : Shared O F} (hP : OfPart runIds o P shared) :
    OfPart runIds o (R ((host containers).answer o turn (.api request) shared).1)
      ((host containers).answer o turn (.api request) shared).2 := by
  have hanswer : (host containers).answer o turn (.api request) shared =
      ((serve containers turn request shared.cluster).1,
        { shared with cluster := (serve containers turn request shared.cluster).2 }) := by
    have hfault : turn.fault = none := hturn
    simp only [host, hfault]
    rfl
  rw [hanswer]
  refine ⟨hP.1.serve containers turn hallowed, ?_⟩
  have hserve := serve_part_own containers turn hP.1 hallowed
  have hpart := h _ hP.2
  rw [hserve] at hpart
  exact hpart

/-! ### The phases of a cleanup -/

section Phases

variable {runId : String} {driver : KubernetesDriver}

/-- A resource of a run, which carries the labels that its cleanup selects by. -/
def OwnResource (driver : KubernetesDriver) (runId : String) (metadata : Metadata) : Prop :=
  ownsName runId metadata.name = true ∧ selects driver.cleanupSelector metadata.labels = true

/-- Every resource of the part is the run's, and there are no more than so many of them. -/
structure Before (driver : KubernetesDriver) (runId : String) (p s : Nat) (cluster : Cluster F) :
    Prop where
  pods : ∀ pod ∈ cluster.pods, OwnResource driver runId pod.manifest.metadata
  services : ∀ service ∈ cluster.services, OwnResource driver runId service.manifest.metadata
  podCount : cluster.pods.length ≤ p
  serviceCount : cluster.services.length ≤ s

/-- The pods that are still to be deleted are among `names`. -/
def PodsLeft (names : List String) (cluster : Cluster F) : Prop :=
  ∀ pod ∈ cluster.pods, pod.terminating = true ∨ pod.name ∈ names

/-- While the pods are deleted. -/
structure During (driver : KubernetesDriver) (runId : String) (s : Nat) (names : List String)
    (cluster : Cluster F) : Prop where
  pods : PodsLeft names cluster
  services : ∀ service ∈ cluster.services, OwnResource driver runId service.manifest.metadata
  serviceCount : cluster.services.length ≤ s

/-- While the Services are deleted. -/
structure Ending (names : List String) (cluster : Cluster F) : Prop where
  pods : PodsLeft [] cluster
  services : ∀ service ∈ cluster.services, service.name ∈ names

theorem lasting_podsLeft (names : List String) : Lasting (PodsLeft (F := F) names) :=
  lasting_pods fun pod pod' hmanifest hterminating h => by
    unfold Pod.name at h ⊢
    rw [hterminating, hmanifest]
    exact h

theorem lasting_before (p s : Nat) : Lasting (Before (F := F) driver runId p s) := by
  intro cluster event h
  refine ⟨?_, ?_, lasting_podCount p cluster event h.podCount,
    lasting_serviceCount s cluster event h.serviceCount⟩
  · exact lasting_pods (fun pod pod' hmanifest _ hpod => by rwa [hmanifest]) cluster event h.pods
  · exact lasting_services cluster event h.services

theorem lasting_during (s : Nat) (names : List String) :
    Lasting (During (F := F) driver runId s names) := by
  intro cluster event h
  exact ⟨lasting_podsLeft names cluster event h.pods, lasting_services cluster event h.services,
    lasting_serviceCount s cluster event h.serviceCount⟩

theorem lasting_ending (names : List String) : Lasting (Ending (F := F) names) := by
  intro cluster event h
  exact ⟨lasting_podsLeft [] cluster event h.pods, lasting_services cluster event h.services⟩

variable {containers : Containers F} {turn : Turn} {cluster : Cluster F}

/-- The list names every pod that there is. -/
theorem Before.listPods {p s : Nat} (h : Before driver runId p s cluster) :
    (serve containers turn (.listPods driver.cleanupSelector) cluster).1 = .ok cluster.pods := by
  simp only [serve]
  rw [List.filter_eq_self.mpr fun pod hpod => (h.pods pod hpod).2]

theorem During.listServices {s : Nat} {names : List String}
    (h : During driver runId s names cluster) :
    (serve containers turn (.listServices driver.cleanupSelector) cluster).1 =
      .ok cluster.services := by
  simp only [serve]
  rw [List.filter_eq_self.mpr fun service hservice => (h.services service hservice).2]

/-- After its delete request no pod of a name is left that is not terminating. -/
theorem PodsLeft.delete {name : String} {names : List String}
    (h : PodsLeft (name :: names) cluster) :
    PodsLeft names (serve containers turn (.deletePod name) cluster).2 := by
  simp only [serve]
  split
  · intro pod hpod
    obtain ⟨hold, hname⟩ | ⟨old, -, -, hchange⟩ := Registry.mem_change hpod
    · obtain hterminating | hmem := h pod hold
      · exact .inl hterminating
      · exact .inr ((List.mem_cons.mp hmem).resolve_left hname)
    · cases hchange
      exact .inl rfl
  · rename_i hnone
    intro pod hpod
    obtain hterminating | hname := h pod hpod
    · exact .inl hterminating
    · obtain hname | hname := List.mem_cons.mp hname
      · exfalso
        apply hnone
        exact List.any_eq_true.mpr ⟨pod, hpod, by simpa using hname⟩
      · exact .inr hname

theorem During.deletePod {s : Nat} {name : String} {names : List String}
    (h : During driver runId s (name :: names) cluster) :
    During driver runId s names (serve containers turn (.deletePod name) cluster).2 := by
  refine ⟨h.pods.delete, ?_, ?_⟩
  · simp only [serve]
    split <;> exact h.services
  · simp only [serve]
    split <;> exact h.serviceCount

/-- After its delete request no Service of a name is left. -/
theorem Ending.deleteService {name : String} {names : List String}
    (h : Ending (name :: names) cluster) :
    Ending names (serve containers turn (.deleteService name) cluster).2 := by
  simp only [serve]
  split
  · refine ⟨h.pods, fun service hservice => ?_⟩
    obtain ⟨hold, hname⟩ | ⟨_, _, _, hnone⟩ := Registry.mem_change hservice
    · exact (List.mem_cons.mp (h.services service hold)).resolve_left hname
    · cases hnone
  · rename_i hnone
    refine ⟨h.pods, fun service hservice => ?_⟩
    refine (List.mem_cons.mp (h.services service hservice)).resolve_left fun hname => hnone ?_
    exact List.any_eq_true.mpr ⟨service, hservice, by simpa using hname⟩

end Phases

/-! ### The cleanup -/

section Runs

variable {driver : KubernetesDriver} (containers : Containers F)

/-- A request that is only reported takes one turn and raises nothing. -/
theorem reaches_reported (request : Request) (hallowed : Allowed (runIds o) (.api request))
    {P P' : Cluster F → Prop} (hP : Lasting P) (hP' : Lasting P')
    (h : ∀ turn cluster, P cluster → P' (serve containers turn request cluster).2) :
    (host containers).Reaches o Faultless (Others runIds o) (reported request).run 1
      (OfPart runIds o P) fun result shared => result = .ok ⟨⟩ ∧ OfPart runIds o P' shared := by
  refine ⟨stable_ofPart hP, fun _ => ⟨0, by omega, fun _ => OfPart runIds o P', ?_, ?_⟩⟩
  · intro turn shared hturn hshared
    exact ofPart_answer containers hturn request hallowed (fun _ => P') (h turn) hshared
  · intro reply
    cases reply with
    | ok answer => exact Host.reaches_done (stable_ofPart hP') fun _ hs => ⟨rfl, hs⟩
    | error error => exact Host.reaches_done (stable_ofPart hP') fun _ hs => ⟨rfl, hs⟩

/-- What is known once the pods are listed. -/
structure ListedPods (driver : KubernetesDriver) (runId : String) (p s : Nat)
    (pods : List (Pod F)) (cluster : Cluster F) : Prop where
  own : ∀ pod ∈ pods, ownsName runId pod.name = true
  count : pods.length ≤ p
  during : During driver runId s (pods.map Pod.name) cluster

/-- What is known once the Services are listed. -/
structure ListedServices (runId : String) (s : Nat) (services : List Service)
    (cluster : Cluster F) : Prop where
  own : ∀ service ∈ services, ownsName runId service.name = true
  count : services.length ≤ s
  ending : Ending (services.map Service.name) cluster

theorem lasting_listedPods (driver : KubernetesDriver) (runId : String) (p s : Nat)
    (pods : List (Pod F)) : Lasting (ListedPods driver runId p s pods) :=
  fun cluster event h => ⟨h.own, h.count, lasting_during s _ cluster event h.during⟩

theorem lasting_listedServices (runId : String) (s : Nat) (services : List Service) :
    Lasting (ListedServices (F := F) runId s services) :=
  fun cluster event h => ⟨h.own, h.count, lasting_ending _ cluster event h.ending⟩

/-- A listing that meets no fault: what it finds is returned. -/
theorem reaches_api (request : Request) (hallowed : Allowed (runIds o) (.api request))
    {P : Cluster F → Prop} {R : Answer F request → Cluster F → Prop} (hP : Lasting P)
    (hR : ∀ found, Lasting (R found))
    (h : ∀ turn cluster, P cluster → ∃ found, serve containers turn request cluster =
      (.ok found, cluster) ∧ R found cluster) :
    (host containers).Reaches o Faultless (Others runIds o) (api (F := F) request).run 1
      (OfPart runIds o P) fun result shared => ∃ found, result = .ok found ∧
        OfPart runIds o (R found) shared := by
  refine ⟨stable_ofPart hP, fun _ => ⟨0, by omega, fun reply => OfPart runIds o fun cluster =>
    ∃ found, reply = .ok found ∧ R found cluster, ?_, ?_⟩⟩
  · intro turn shared hturn hshared
    refine ofPart_answer containers hturn request hallowed
      (fun reply cluster => ∃ found, reply = .ok found ∧ R found cluster)
      (fun cluster hcluster => ?_) hshared
    obtain ⟨found, hserve, hfound⟩ := h turn cluster hcluster
    rw [hserve]
    exact ⟨found, rfl, hfound⟩
  · intro reply
    have hlasting : Lasting fun cluster : Cluster F => ∃ found, reply = .ok found ∧
        R found cluster := by
      rintro cluster event ⟨found, hreply, hfound⟩
      exact ⟨found, hreply, hR found cluster event hfound⟩
    refine Host.reaches_done (stable_ofPart hlasting) ?_
    rintro shared ⟨htidy, found, rfl, hfound⟩
    exact ⟨found, rfl, htidy, hfound⟩

theorem reaches_listed (hselector : ∀ labels, selects driver.cleanupSelector labels = true →
      labels.lookup runIdLabel = some (runIds o)) (p s : Nat) :
    (host containers).Reaches o Faultless (Others runIds o)
      (listed (F := F) driver.cleanupSelector).run 1
      (OfPart runIds o (Before driver (runIds o) p s))
      fun result shared => ∃ found, result = .ok found ∧ ∃ pods, found = some pods ∧
        OfPart runIds o (ListedPods driver (runIds o) p s pods) shared := by
  have hlist := reaches_api containers (o := o) (.listPods driver.cleanupSelector)
    hselector (lasting_before p s) (fun pods => lasting_listedPods driver (runIds o) p s pods)
    fun turn cluster h => ⟨cluster.pods, Prod.ext h.listPods rfl, fun pod hpod => (h.pods pod hpod).1,
      h.podCount, fun pod hpod => .inr (List.mem_map_of_mem hpod), h.services, h.serviceCount⟩
  have hstable : ∀ found : Option (List (Pod F)), Host.Stable (Others runIds o)
      fun shared => ∃ pods, found = some pods ∧
        OfPart runIds o (ListedPods driver (runIds o) p s pods) shared := by
    rintro found shared shared' ⟨pods, hpods, hof⟩ hothers
    exact ⟨pods, hpods, stable_ofPart (lasting_listedPods driver (runIds o) p s pods) _ _ hof
      hothers⟩
  refine Host.Reaches.tryCatch_ok ?_ hstable
  refine hlist.bind_ok (fun pods => stable_ofPart (lasting_listedPods driver _ p s pods))
    (j := 0) fun pods _ => ?_
  exact Host.reaches_done (stable_ofPart (lasting_listedPods driver _ p s pods))
    fun shared hof => ⟨some pods, rfl, pods, rfl, hof⟩

/-- The last part of a cleanup. -/
theorem reaches_deleteServices (hrun : driver.InRun (runIds o)) (s : Nat)
    (services : List Service) (hcount : services.length ≤ s)
    (hown : ∀ service ∈ services, ownsName (runIds o) service.name = true) :
    (host containers).Reaches o Faultless (Others runIds o)
      (do
        List.forM services fun service => reported (.deleteService service.name)
        if driver.reuseNamespace = false then reported .deleteNamespace : Op F Unit).run s
      (OfPart runIds o (ListedServices (runIds o) s services))
      fun result shared => result = .ok () ∧ OfPart runIds o (Ending []) shared := by
  have hloop : (host containers).Reaches o Faultless (Others runIds o)
      (List.forM services fun service => reported (F := F) (.deleteService service.name)).run
      (services.length * 1) (OfPart runIds o (Ending (services.map Service.name)))
      fun result shared => result = .ok ⟨⟩ ∧ OfPart runIds o (Ending []) shared :=
    Host.reaches_forM (fun rest => OfPart runIds o (Ending (F := F) (rest.map Service.name)))
      (fun rest => stable_ofPart (lasting_ending _)) fun service hservice rest =>
        reaches_reported containers (.deleteService _) (hown service hservice)
          (lasting_ending _) (lasting_ending _) fun turn cluster h => h.deleteService
  have hstart : (host containers).Reaches o Faultless (Others runIds o)
      (List.forM services fun service => reported (F := F) (.deleteService service.name)).run s
      (OfPart runIds o (ListedServices (runIds o) s services))
      fun result shared => ∃ a, result = .ok a ∧ OfPart runIds o (Ending []) shared :=
    ((hloop.mono (by omega)).of_imp (stable_ofPart (lasting_listedServices _ s services))
      fun _ h => ⟨h.1, h.2.ending⟩).imp fun _ _ h => ⟨⟨⟩, h⟩
  rw [hrun.reuse]
  refine hstart.bind_ok (fun _ => stable_ofPart (lasting_ending [])) (j := 0) fun _ _ => ?_
  exact Host.reaches_done (stable_ofPart (lasting_ending [])) fun _ h => ⟨rfl, h⟩

/-- A cleanup of a part with at most `p` pods and `s` Services ends within `p + s + 2` turns; then
every pod of the part is terminating and no Service is left. -/
theorem reaches_cleanup (hrun : driver.InRun (runIds o)) (p s : Nat) :
    (host containers).Reaches o Faultless (Others runIds o) (driver.cleanup (F := F)).run
      (1 + (p + (1 + s))) (OfPart runIds o (Before driver (runIds o) p s))
      fun result shared => result = .ok () ∧ OfPart runIds o (Ending []) shared := by
  have hselector : ∀ labels, selects driver.cleanupSelector labels = true →
      labels.lookup runIdLabel = some (runIds o) := fun _ => lookup_of_selects hrun
  have hstable : ∀ found : Option (List (Pod F)), Host.Stable (Others runIds o)
      fun shared => ∃ pods, found = some pods ∧
        OfPart runIds o (ListedPods driver (runIds o) p s pods) shared := by
    rintro found shared shared' ⟨pods, hpods, hof⟩ hothers
    exact ⟨pods, hpods, stable_ofPart (lasting_listedPods driver (runIds o) p s pods) _ _ hof
      hothers⟩
  refine (reaches_listed containers hselector p s).bind_ok hstable fun found hfound => ?_
  obtain ⟨shared₀, pods, rfl, -, hlisted⟩ := hfound
  have hpods : (host containers).Reaches o Faultless (Others runIds o)
      (List.forM pods fun pod => reported (F := F) (.deletePod pod.name)).run (pods.length * 1)
      (OfPart runIds o (During driver (runIds o) s (pods.map Pod.name)))
      fun result shared => result = .ok ⟨⟩ ∧
        OfPart runIds o (During driver (runIds o) s []) shared :=
    Host.reaches_forM
      (fun rest => OfPart runIds o (During driver (runIds o) s (rest.map Pod.name)))
      (fun rest => stable_ofPart (lasting_during s _)) fun pod hpod rest =>
        reaches_reported containers (.deletePod _) (hlisted.own pod hpod) (lasting_during s _)
          (lasting_during s _) fun turn cluster h => h.deletePod
  have hstart : (host containers).Reaches o Faultless (Others runIds o)
      (List.forM pods fun pod => reported (F := F) (.deletePod pod.name)).run p
      (fun shared => ∃ pods', some pods = some pods' ∧
        OfPart runIds o (ListedPods driver (runIds o) p s pods') shared)
      fun result shared => ∃ a, result = .ok a ∧
        OfPart runIds o (During driver (runIds o) s []) shared := by
    have hcount := hlisted.count
    refine ((hpods.mono (by omega)).of_imp (hstable (some pods)) ?_).imp fun _ _ h => ⟨⟨⟩, h⟩
    rintro shared ⟨_, ⟨⟩, h⟩
    exact ⟨h.1, h.2.during⟩
  refine hstart.bind_ok (fun _ => stable_ofPart (lasting_during s [])) fun _ _ => ?_
  have hlist := reaches_api containers (o := o) (.listServices driver.cleanupSelector)
    hselector (lasting_during (F := F) s [])
    (fun services => lasting_listedServices (runIds o) s services)
    fun turn cluster h => ⟨cluster.services, Prod.ext h.listServices rfl,
      fun service hservice => (h.services service hservice).1, h.serviceCount, h.pods,
      fun service hservice => List.mem_map_of_mem hservice⟩
  refine hlist.bind_ok (fun services => stable_ofPart (lasting_listedServices _ s services))
    fun services hservices => ?_
  obtain ⟨shared₁, -, hlistedServices⟩ := hservices
  exact reaches_deleteServices containers hrun s services hlistedServices.count
    hlistedServices.own

variable {N α : Type} [DecidableEq N]

/-- The moves that are not a thread's own leave its run's part to what happens there, if the run
has no other thread. -/
theorem others_move
    (hsuffix : ∀ o p, runSuffix (runIds o) = runSuffix (runIds p) → o = p) {owner : N → O} {n : N}
    (hthread : ∀ m, owner m = owner n → m = n)
    {table : Table (Shared O F) N Question (Reply F) α}
    (horderly : InOrder runIds owner table)
    {next : Move N Turn (Event F)} (hnext : Host.isTurnOf n next = false) :
    Others runIds (owner n) table.state ((host containers).move owner table next).state := by
  have hkeeps := (separates containers hsuffix (owner n)).orderly_move horderly next
  refine ⟨fun _ => hkeeps.state, ?_⟩
  cases next with
  | event event => exact .inr ⟨event, rfl⟩
  | turn m turn =>
    have hm : owner m ≠ owner n := fun h => by
      rw [hthread m h] at hnext
      simp [Host.isTurnOf] at hnext
    exact .inl (congrArg Shared.cluster (view_turn containers hsuffix hm horderly turn))

/-- A cleanup that meets no fault leaves nothing of its run behind.  Whatever the other runs do in
the namespace and whatever happens to its pods in the meantime, a run with `p` pods and `s` Services
whose only thread cleans up is at its end after `p + s + 2` turns: without an exception, with all
its pods terminating and none of its Services left. -/
theorem cleanup_leaves_nothing (drivers : O → KubernetesDriver)
    (hruns : ∀ o, (drivers o).InRun (runIds o))
    (hsuffix : ∀ o p, runSuffix (runIds o) = runSuffix (runIds p) → o = p) (owner : N → O)
    (scripts : N → Session Operation OperationResult α) (shared : Shared O F)
    (htidy : Tidy runIds shared.cluster) (n : N) (hthread : ∀ m, owner m = owner n → m = n)
    (finish : Except Raised Unit → α)
    (hscript : scripts n = .ask .cleanup fun result => .done (finish result))
    (p s : Nat) (hbefore : Before (drivers (owner n)) (runIds (owner n)) p s
      (shared.cluster.part (ownsName (runIds (owner n)))))
    (schedule : List (Move N Turn (Event F)))
    (hfaultless : ∀ turn, .turn n turn ∈ schedule → turn.fault = none)
    (hturns : p + s + 2 ≤ schedule.countP (Host.isTurnOf n)) :
    let final := (host containers).moves owner
      ⟨shared, fun m => (scripts m).perform (drivers (owner m)).operation⟩ schedule
    final.sessions n = .done (finish (.ok ())) ∧
      (∀ pod ∈ final.state.cluster.pods, ownsName (runIds (owner n)) pod.name = true →
        pod.terminating = true) ∧
      ∀ service ∈ final.state.cluster.services,
        ownsName (runIds (owner n)) service.name = false := by
  intro final
  have hreaches : (host containers).Reaches (owner n) Faultless (Others runIds (owner n))
      ((scripts n).perform (drivers (owner n)).operation) (1 + (p + (1 + s)) + 0)
      (OfPart runIds (owner n) (Before (drivers (owner n)) (runIds (owner n)) p s))
      fun a shared => a = finish (.ok ()) ∧ OfPart runIds (owner n) (Ending []) shared := by
    rw [hscript]
    refine (reaches_cleanup containers (hruns (owner n)) p s).bind fun result hresult => ?_
    obtain ⟨-, rfl, -⟩ := hresult
    refine Host.reaches_done ?_ fun _ h => ⟨rfl, h.2⟩
    rintro s s' ⟨-, hs⟩ hothers
    exact ⟨rfl, stable_ofPart (lasting_ending []) s s' hs hothers⟩
  have hgood : ∀ (table : Table (Shared O F) N Question (Reply F) α) next,
      InOrder runIds owner table → InOrder runIds owner ((host containers).move owner table next) :=
    fun table next h => (separates containers hsuffix (owner n)).orderly_move h next
  have hothers : (host containers).Along owner
      (fun next s s' => Host.isTurnOf n next = false → Others runIds (owner n) s s')
      ⟨shared, fun m => (scripts m).perform (drivers (owner m)).operation⟩ schedule :=
    Host.along_of_good hgood
      (fun _ _ _ h hnext => others_move containers hsuffix hthread h hnext)
      (inOrder_start hruns owner scripts htidy)
  obtain ⟨a, hdone, rfl, hending⟩ :=
    Host.Reaches.moves hothers hfaultless ⟨_, hreaches, htidy, hbefore⟩ (by omega)
  refine ⟨hdone, fun pod hpod hown => ?_, fun service hservice => ?_⟩
  · exact (hending.2.pods pod (List.mem_filter.mpr ⟨hpod, hown⟩)).resolve_right nofun
  · by_contra hown
    have hmem := hending.2.services service
      (List.mem_filter.mpr ⟨hservice, by simpa using hown⟩)
    cases hmem

end Runs

/-! ### The resources of two runs -/

def pairMetadata (o : Bool) (name : String) : Metadata where
  name := (pairDrivers o).resourceName name
  labels := (pairDrivers o).resourceLabels name
  ownerReference := none

/-- A running pod. -/
def pairPod (o : Bool) (name : String) (contents : F) : Pod F where
  manifest := {
    metadata := pairMetadata o name
    hostAliases := []
    image := name
    containerName := (pairDrivers o).resourceName name
    containerPorts := []
    env := []
    volumes := []
    runAsUser := none
    runAsGroup := none
    command := none
    sysctls := []
    imagePullSecret := false }
  status := {
    phase := some "Running"
    podIp := some "10.0.0.1"
    containerStatuses := [{ name := (pairDrivers o).resourceName name, running := true }] }
  nodeName := some "node"
  terminating := false
  contents := contents

def pairService (o : Bool) (name : String) : Service :=
  ⟨⟨pairMetadata o name, (pairDrivers o).serviceSelector name, []⟩, "10.0.1.1", []⟩

theorem ownResource_pairMetadata (o : Bool) (name : String) :
    OwnResource (pairDrivers o) (pairIds o) (pairMetadata o name) :=
  ⟨ownsName_resourceName (pairDrivers_inRun o) name,
    selects_resourceLabels (pairDrivers_inRun o) name⟩

/-- The run that a label tells is the one whose name it has. -/
theorem owner_pairMetadata {o o' : Bool} {name : String}
    (h : (pairMetadata o name).labels.lookup runIdLabel = some (pairIds o')) : o' = o := by
  have hlabel := (lookup_resourceLabels (pairDrivers_inRun o) name).symm.trans h
  cases o <;> cases o' <;> first | rfl | exact absurd (Option.some.inj hlabel) (by decide)

/-- The pods and Services of both runs. -/
structure OfPair (cluster : Cluster F) : Prop where
  pods : ∀ pod ∈ cluster.pods, ∃ o name, pod.manifest.metadata = pairMetadata o name
  services : ∀ service ∈ cluster.services, ∃ o name, service.manifest.metadata = pairMetadata o name

theorem OfPair.tidy {cluster : Cluster F} (h : OfPair cluster) : Tidy pairIds cluster := by
  refine ⟨fun pod hpod o' ho' => ?_, fun service hservice o' ho' => ?_⟩
  · obtain ⟨o, name, hmetadata⟩ := h.pods pod hpod
    rw [Pod.name, hmetadata]
    rw [hmetadata] at ho'
    obtain rfl := owner_pairMetadata ho'
    exact (ownResource_pairMetadata o' name).1
  · obtain ⟨o, name, hmetadata⟩ := h.services service hservice
    rw [Service.name, hmetadata]
    rw [hmetadata] at ho'
    obtain rfl := owner_pairMetadata ho'
    exact (ownResource_pairMetadata o' name).1

/-- Two pods and a Service of one run, beside a pod and a Service of the other one. -/
def pairCluster : Cluster Unit where
  pods := [pairPod true "btc-node" (), pairPod false "btc-node" (), pairPod true "wallet-000" ()]
  services := [pairService false "btc-node", pairService true "btc-node"]

theorem ofPair_pairCluster : OfPair pairCluster := by
  refine ⟨fun pod hpod => ?_, fun service hservice => ?_⟩
  · simp only [pairCluster, List.mem_cons, List.not_mem_nil, or_false] at hpod
    rcases hpod with rfl | rfl | rfl
    exacts [⟨_, _, rfl⟩, ⟨_, _, rfl⟩, ⟨_, _, rfl⟩]
  · simp only [pairCluster, List.mem_cons, List.not_mem_nil, or_false] at hservice
    rcases hservice with rfl | rfl
    exacts [⟨_, _, rfl⟩, ⟨_, _, rfl⟩]

theorem before_pairCluster :
    Before (pairDrivers true) (pairIds true) 2 1 (pairCluster.part (ownsName (pairIds true))) := by
  have hother : ownsName (pairIds true) ((pairDrivers false).resourceName "btc-node") = false := by
    decide +kernel
  refine ⟨fun pod hpod => ?_, fun service hservice => ?_, by decide +kernel, by decide +kernel⟩
  · obtain ⟨hmem, hown⟩ := List.mem_filter.mp hpod
    simp only [pairCluster, List.mem_cons, List.not_mem_nil, or_false] at hmem
    rcases hmem with rfl | rfl | rfl
    · exact ownResource_pairMetadata true "btc-node"
    · exact absurd (hown.symm.trans hother) (by decide)
    · exact ownResource_pairMetadata true "wallet-000"
  · obtain ⟨hmem, hown⟩ := List.mem_filter.mp hservice
    simp only [pairCluster, List.mem_cons, List.not_mem_nil, or_false] at hmem
    rcases hmem with rfl | rfl
    · exact absurd (hown.symm.trans hother) (by decide)
    · exact ownResource_pairMetadata true "btc-node"

def cleanScript (_ : Bool) : Session Operation OperationResult (Except Raised Unit) :=
  .ask .cleanup fun result => .done result

/-- Both runs clean up.  A request of the other one fails, and a pod goes away by itself. -/
def cleanSchedule : List (Move Bool Turn (Event Unit)) := [
  .turn false {}, .turn true {},
  .event (.podGone ((pairDrivers true).resourceName "wallet-000")),
  .turn true {}, .turn false { fault := some ⟨500, "", "(500)"⟩, performed := false },
  .event (.podStatus ((pairDrivers true).resourceName "btc-node") {} none),
  .turn true {}, .turn true {}, .turn false {}, .turn true {}]

/-- What is left is the pod that is terminating, and the pod of the other run, whose request failed,
with its Service. -/
theorem cleanup_leaves_nothing_pair :
    let final := (host idleContainers).moves id
      ⟨⟨pairCluster, fun _ => []⟩, fun m => (cleanScript m).perform (pairDrivers m).operation⟩
      cleanSchedule
    (final.sessions true = .done (.ok ()) ∧
      (∀ pod ∈ final.state.cluster.pods, ownsName (pairIds true) pod.name = true →
        pod.terminating = true) ∧
      ∀ service ∈ final.state.cluster.services, ownsName (pairIds true) service.name = false) ∧
    final.state.cluster.pods.map (fun pod => (pod.name, pod.terminating)) =
      [((pairDrivers true).resourceName "btc-node", true),
        ((pairDrivers false).resourceName "btc-node", false)] ∧
    final.state.cluster.services.map Service.name =
      [(pairDrivers false).resourceName "btc-node"] :=
  ⟨cleanup_leaves_nothing idleContainers pairDrivers pairDrivers_inRun (by decide +kernel) id
    cleanScript ⟨pairCluster, fun _ => []⟩ ofPair_pairCluster.tidy true (fun _ h => h) id rfl 2 1
    before_pairCluster cleanSchedule
    (fun turn hturn => by
      have hmem : turn = {} := by simpa [cleanSchedule] using hturn
      rw [hmem])
    (by decide), by decide +kernel, by decide +kernel⟩

end CoinjoinEmulator.Driver
